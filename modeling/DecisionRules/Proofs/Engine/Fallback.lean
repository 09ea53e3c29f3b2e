import DecisionRules.Engine

/-!
# The fallback of an engine

A decision is settled by two checks in the same context: that of the rule and that of the
default rule.  Only the first one counts where it succeeds.  Where it fails, only the second one
counts for the verdict, so that all failing rules get the verdict of the default rule.
-/

namespace DecisionRules
namespace Engine

/-- A rule is checked by the value of its tree. -/
theorem check_eq (engine : Engine) (source : String) (context : Context) :
    engine.check source context =
      match Expr.parse engine.settings.vocabulary engine.settings.maxDepth source with
      | .ok tree => (tree.eval context).map Value.isTruthy
      | .error error => .error error := by
  rw [check, Settings.parse, Rule.parse]
  cases Expr.parse engine.settings.vocabulary engine.settings.maxDepth source <;> rfl

section Check

variable {engine : Engine} {source : String} {context : Context}

/-- A rule that is not read, or that has no value, fails. -/
theorem exists_check_eq_error
    (fails : ∀ tree,
      Expr.parse engine.settings.vocabulary engine.settings.maxDepth source = .ok tree →
        ∀ value, tree.eval context ≠ .ok value) :
    ∃ cause, engine.check source context = .error cause := by
  rw [check_eq]
  cases read : Expr.parse engine.settings.vocabulary engine.settings.maxDepth source with
  | error error => exact ⟨error, rfl⟩
  | ok tree =>
      cases result : tree.eval context with
      | error error => exact ⟨error, congrArg (Except.map Value.isTruthy) result⟩
      | ok value => exact absurd result (fails tree read value)

variable {rule : Rule} (read : engine.settings.parse source = .ok rule)

include read

/-- A rule that has a value is checked by it. -/
theorem check_of_value
    {value : Value}
    (evaluates : rule.evaluate context = .ok value) :
    engine.check source context = .ok value.isTruthy := by
  rw [check, read]
  simp only [Rule.check, evaluates]
  rfl

/-- A rule that has no value fails for the same cause when it is checked. -/
theorem check_of_failure
    {cause : RuleError}
    (fails : rule.evaluate context = .error cause) :
    engine.check source context = .error cause := by
  rw [check, read]
  simp only [Rule.check, fails]
  rfl

end Check

section Decision

variable {engine : Engine} {source : String} {context : Context} {cause defaultCause : RuleError}

/-- A rule that succeeds decides. -/
theorem decide_of_ok {verdict : Bool} (succeeds : engine.check source context = .ok verdict) :
    engine.decide source context = ⟨verdict, .rule⟩ := by
  rw [decide, succeeds]

/-- The default rule decides for a rule that fails. -/
theorem decide_of_error_of_ok
    {verdict : Bool}
    (fails : engine.check source context = .error cause)
    (defaultSucceeds : engine.check engine.settings.defaultRule context = .ok verdict) :
    engine.decide source context = ⟨verdict, .fallback cause⟩ := by
  rw [check_defaultRule] at defaultSucceeds
  rw [decide, fails]
  simp only [defaultSucceeds]

/-- The verdict is negative when both rules fail. -/
theorem decide_of_error_of_error
    (fails : engine.check source context = .error cause)
    (defaultFails : engine.check engine.settings.defaultRule context = .error defaultCause) :
    engine.decide source context = ⟨false, .defect cause defaultCause⟩ := by
  rw [check_defaultRule] at defaultFails
  rw [decide, fails]
  simp only [defaultFails]

/-- A rule that fails has the verdict of the default rule. -/
theorem verdict_of_error (fails : engine.check source context = .error cause) :
    (engine.decide source context).verdict =
      (engine.decide engine.settings.defaultRule context).verdict := by
  cases default : engine.check engine.settings.defaultRule context with
  | ok verdict => rw [decide_of_error_of_ok fails default, decide_of_ok default]
  | error defaultCause =>
      rw [decide_of_error_of_error fails default, decide_of_error_of_error default default]

end Decision

/-- Contexts in which every text has the same check lead to the same decisions. -/
theorem decide_congr
    (engine : Engine)
    {context other : Context}
    (same : ∀ source, engine.check source context = engine.check source other)
    (source : String) :
    engine.decide source context = engine.decide source other := by
  rw [decide, decide, ← check_defaultRule, ← check_defaultRule, same source,
    same engine.settings.defaultRule]

/-- A rule that succeeds decides.  A rule that fails has the verdict of the default rule; the
outcome tells the cause, and also the default rule's own cause where that rule fails as well.
So any two failing rules have the same verdict, and evaluation is the verdict alone. -/
theorem decide_by_fallback (engine : Engine) (source : String) (context : Context) :
    (∀ verdict,
      engine.check source context = .ok verdict →
        engine.decide source context = ⟨verdict, .rule⟩) ∧
    (∀ cause,
      engine.check source context = .error cause →
        (engine.decide source context).verdict =
            (engine.decide engine.settings.defaultRule context).verdict ∧
          ((∃ verdict,
              engine.check engine.settings.defaultRule context = .ok verdict ∧
                engine.decide source context = ⟨verdict, .fallback cause⟩) ∨
            ∃ defaultCause,
              engine.check engine.settings.defaultRule context = .error defaultCause ∧
                engine.decide source context = ⟨false, .defect cause defaultCause⟩ ∧
                engine.decide engine.settings.defaultRule context =
                  ⟨false, .defect defaultCause defaultCause⟩)) ∧
    (∀ other cause otherCause,
      engine.check source context = .error cause →
        engine.check other context = .error otherCause →
          (engine.decide source context).verdict = (engine.decide other context).verdict) ∧
    engine.evaluate source context = (engine.decide source context).verdict := by
  refine ⟨fun verdict => decide_of_ok, ?_, ?_, rfl⟩
  · intro cause fails
    refine ⟨verdict_of_error fails, ?_⟩
    cases default : engine.check engine.settings.defaultRule context with
    | ok verdict => exact .inl ⟨verdict, rfl, decide_of_error_of_ok fails default⟩
    | error defaultCause =>
        exact .inr ⟨defaultCause, rfl, decide_of_error_of_error fails default,
          decide_of_error_of_error default default⟩
  · intro other cause otherCause fails otherFails
    rw [verdict_of_error fails, verdict_of_error otherFails]

/-- An incomplete sum has the verdict of the default rule of the standard engine. -/
theorem decide_by_fallback_of_incomplete :
    ∃ cause,
      standard.check "1 +" (fun _ => none) = .error cause ∧
        (standard.decide "1 +" fun _ => none).verdict =
          (standard.decide standard.settings.defaultRule fun _ => none).verdict := by
  have fails : (standard.check "1 +" fun _ => none).toOption = none := by decide +kernel
  cases checked : standard.check "1 +" fun _ => none with
  | ok verdict =>
      rw [checked] at fails
      cases fails
  | error cause =>
      exact ⟨cause, rfl, ((decide_by_fallback standard "1 +" _).2.1 cause checked).1⟩

end Engine
end DecisionRules
