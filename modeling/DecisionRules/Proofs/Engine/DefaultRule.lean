import DecisionRules.Proofs.Engine.Fallback
import DecisionRules.Proofs.Grammar.Signs

/-!
# Failures of default rules

The default rule of an engine was read when the engine was made, and is read in the same way
whenever it has to step in.  So it fails on the facts alone: it names a variable that they do not
bind, or divides by what is zero there.  Where the facts bind all of its variables and its text has
no sign of division, it never fails, and every decision is a verdict of one of the two rules.
-/

namespace DecisionRules
namespace Engine

/-- The engines are those that settings with a readable default rule are made into. -/
theorem ofSettings_eq_ok_iff (settings : Settings) (engine : Engine) :
    ofSettings settings = .ok engine ↔ engine.settings = settings := by
  constructor
  · intro made
    unfold ofSettings at made
    split at made
    · cases made
      rfl
    · cases made
  · rintro rfl
    unfold ofSettings
    split
    next fallback readable =>
      obtain rfl : engine.fallback = fallback :=
        Except.ok.inj (engine.readable.symm.trans readable)
      rfl
    next error unreadable =>
      have readable := engine.readable
      rw [unreadable] at readable
      cases readable

section Defect

variable {engine : Engine} {source : String} {context : Context} {cause defaultCause : RuleError}

/-- A decision is a defect where the default rule fails as well. -/
theorem check_fallback_of_defect
    (defect : (engine.decide source context).outcome = .defect cause defaultCause) :
    engine.fallback.check context = .error defaultCause := by
  rw [decide] at defect
  split at defect
  · cases defect
  · split at defect
    · cases defect
    next fails =>
      cases defect
      exact fails

/-- A default rule fails for a reason in its tree. -/
theorem failure_of_defect
    (defect : (engine.decide source context).outcome = .defect cause defaultCause) :
    engine.fallback.tree.Failure context defaultCause := by
  have fails := check_fallback_of_defect defect
  rw [Rule.check, Rule.evaluate] at fails
  cases result : engine.fallback.tree.eval context with
  | error error =>
      rw [result] at fails
      cases fails
      exact Expr.failure_of_eval_eq_error _ result
  | ok value =>
      rw [result] at fails
      cases fails

end Defect

/-- Every engine has a default rule that is read from its text.  When a decision is a defect, the
rule names a variable that the context does not bind, or has a divisor that is zero in the context.
So there is no defect in a context that binds all of its variables when its text has no sign of
division. -/
theorem defect_on_facts (engine : Engine) (context : Context) :
    ofSettings engine.settings = .ok engine ∧
    ∃ rule,
      engine.settings.parse engine.settings.defaultRule = .ok rule ∧
      (∀ source cause defaultCause,
        (engine.decide source context).outcome = .defect cause defaultCause →
          (∃ name place,
            defaultCause = .unknownVariable name place ∧
              .leaf (.variable name) place ∈ rule.tree.nodes ∧ context name = none) ∨
          ∃ divisor value,
            defaultCause = .divisionByZero divisor.span ∧
              rule.tree.HasDivisor divisor ∧
              divisor.eval context = .ok value ∧ (value.asNumber == 0) = true) ∧
      ((∀ name place,
          .leaf (.variable name) place ∈ rule.tree.nodes → (context name).isSome = true) →
        '/' ∉ engine.settings.defaultRule.toList →
        ∀ source cause defaultCause,
          (engine.decide source context).outcome ≠ .defect cause defaultCause) := by
  refine ⟨(ofSettings_eq_ok_iff _ engine).mpr rfl, engine.fallback, engine.readable, ?_, ?_⟩
  · intro source cause defaultCause defect
    cases failure_of_defect defect with
    | unbound member unbound => exact .inl ⟨_, _, rfl, member, unbound⟩
    | division divides evaluates zero => exact .inr ⟨_, _, rfl, divides, evaluates, zero⟩
  · intro bound undivided source cause defaultCause defect
    cases failure_of_defect defect with
    | unbound member unbound =>
        have known := bound _ _ member
        rw [unbound] at known
        cases known
    | division divides _ _ =>
        obtain ⟨tree, read, same⟩ := exists_ok_of_map_eq_ok engine.readable
        rw [← same] at divides
        exact undivided (Expr.mem_of_hasDivisor read divides)

/-- The default rule `1 < 8 / days` fails where all facts are zero; that of the standard engine
cannot fail there. -/
theorem defect_on_facts_of_zero :
    (∃ engine cause divisor rule,
      ofSettings { defaultRule := "1 < 8 / days" } = .ok engine ∧
        engine.settings.parse engine.settings.defaultRule = .ok rule ∧
        (engine.decide "1 +" fun _ => some (.number 0)).outcome =
          .defect cause (.divisionByZero divisor.span) ∧
        rule.tree.HasDivisor divisor) ∧
    ∀ source cause defaultCause,
      (standard.decide source fun _ => some (.number 0)).outcome ≠ .defect cause defaultCause := by
  constructor
  · have fails :
        ((ofSettings { defaultRule := "1 < 8 / days" }).toOption.map fun engine =>
          match (engine.decide "1 +" fun _ => some (.number 0)).outcome with
          | .defect _ _ => true
          | _ => false) = some true := by
      decide +kernel
    cases made : ofSettings { defaultRule := "1 < 8 / days" } with
    | error error =>
        rw [made] at fails
        cases fails
    | ok engine =>
        rw [made] at fails
        cases outcome : (engine.decide "1 +" fun _ => some (.number 0)).outcome with
        | defect cause defaultCause =>
            obtain ⟨_, rule, read, reasons, _⟩ := defect_on_facts engine fun _ => some (.number 0)
            obtain ⟨_, _, _, _, unbound⟩ | ⟨divisor, _, rfl, divides, _⟩ := reasons _ _ _ outcome
            · cases unbound
            · exact ⟨engine, cause, divisor, rule, rfl, read, outcome, divides⟩
        | _ =>
            simp only [Except.toOption, Option.map_some, outcome, Option.some.injEq] at fails
            cases fails
  · obtain ⟨_, rule, _, _, safe⟩ := defect_on_facts standard fun _ => some (.number 0)
    exact safe (fun _ _ _ => rfl) (by decide)

end Engine
end DecisionRules
