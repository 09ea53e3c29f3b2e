import DecisionRules.Proofs.Engine.Fallback

/-!
# The default rule of the standard settings

The default rule asks whether there are fewer than 5 followers or fewer than 180 days.  It asks for
the followers first, and for the days only where the followers do not settle it.  So it fails
exactly where a fact is missing that it has to ask for, and what the standard engine decides on a
rule that fails is known from these two facts.
-/

namespace DecisionRules

/-- The condition that a variable is less than a number holds by the value of the variable, and
fails where there is none. -/
theorem Expr.eval_less
    (context : Context)
    (name : String)
    (bound : Float)
    (place boundPlace groupPlace : Span) :
    (Expr.group
        (.comparison
          [.leaf (.variable name) place, .leaf (.literal (.number bound)) boundPlace]
          [.less])
        groupPlace).eval context =
      match context name with
      | none => .error (.unknownVariable name place)
      | some value => .ok (.boolean (Decidable.decide (value.asNumber < bound))) := by
  simp only [eval_group, eval_comparison, List.map_cons, List.map_nil, eval_leaf, Operand.value]
  cases context name with
  | none => rfl
  | some value =>
      by_cases below : value.asNumber < bound
      · simp only [Comparison.combine, List.zip_cons_cons, Comparison.chain, Comparison.holds,
          Value.asNumber_number, below, decide_true, if_true]
        rfl
      · simp only [Comparison.combine, List.zip_cons_cons, Comparison.chain, Comparison.holds,
          Value.asNumber_number, below, decide_false, Bool.false_eq_true, if_false]

namespace Engine

/-- The default rule of the standard settings has to ask for a fact that is missing: the number of
followers, or the number of days where the followers are not fewer than 5. -/
def StandardLacks (context : Context) : Prop :=
  context "followers_count" = none ∨
    ∃ followers,
      context "followers_count" = some followers ∧
        ¬ followers.asNumber < 5 ∧ context "days" = none

/-- The default rule of the standard settings holds: there are fewer than 5 followers or fewer than
180 days. -/
def StandardHolds (context : Context) : Prop :=
  (∃ followers, context "followers_count" = some followers ∧ followers.asNumber < 5) ∨
    ∃ days, context "days" = some days ∧ days.asNumber < 180

/-- Checking the default rule of the standard settings looks up the followers, and the days where
these do not settle it. -/
theorem check_standard (context : Context) :
    standard.fallback.check context =
      match context "followers_count" with
      | none => .error (.unknownVariable "followers_count" ⟨1, 16⟩)
      | some followers =>
        if followers.asNumber < 5 then .ok true
        else
          match context "days" with
          | none => .error (.unknownVariable "days" ⟨26, 30⟩)
          | some days => .ok (Decidable.decide (days.asNumber < 180)) := by
  have unfolded : standard.fallback.check context =
      (standardTree.eval context).map Value.isTruthy := rfl
  rw [unfolded, standardTree, Expr.eval_logical, List.map_cons, List.map_cons, List.map_nil,
    Expr.eval_less, Expr.eval_less]
  cases context "followers_count" with
  | none => rfl
  | some followers =>
      by_cases few : followers.asNumber < 5
      · simp only [few, decide_true, if_true]
        rfl
      · simp only [few, decide_false, if_false]
        cases context "days" with
        | none => rfl
        | some days =>
            by_cases fresh : days.asNumber < 180
            · simp only [fresh, decide_true]
              rfl
            · simp only [fresh, decide_false]
              rfl

/-- The default rule of the standard settings fails where it lacks a fact, and otherwise has a value
that says whether it holds. -/
theorem check_standard_cases (context : Context) :
    (StandardLacks context ∧ ∃ error, standard.fallback.check context = .error error) ∨
      ¬ StandardLacks context ∧
        ∃ verdict,
          standard.fallback.check context = .ok verdict ∧
            (verdict = true ↔ StandardHolds context) := by
  rw [check_standard]
  unfold StandardLacks StandardHolds
  cases context "followers_count" with
  | none => exact .inl ⟨.inl rfl, _, rfl⟩
  | some followers =>
      by_cases few : followers.asNumber < 5
      · simp [few]
      · cases context "days" with
        | none => simp [few]
        | some days => simp [few]

/-- What the standard engine decides on a rule that is not read, or that has no value.  It is a
defect with a negative verdict if and only if the default rule lacks a fact.  Otherwise the default
rule has decided, and the verdict is positive exactly when the followers are fewer than 5 or the
days are fewer than 180.  Evaluation with the standard settings is that verdict. -/
theorem standard_decide_of_failure
    {source : String}
    {context : Context}
    (fails : ∀ tree,
      Expr.parse .standard 64 source = .ok tree → ∀ value, tree.eval context ≠ .ok value) :
    ((∃ cause defaultCause,
        (standard.decide source context).outcome = .defect cause defaultCause) ↔
      StandardLacks context) ∧
    (StandardLacks context → (standard.decide source context).verdict = false) ∧
    (¬ StandardLacks context →
      (∃ cause, (standard.decide source context).outcome = .fallback cause) ∧
        ((standard.decide source context).verdict = true ↔ StandardHolds context)) ∧
    DecisionRules.evaluate source context = (standard.decide source context).verdict := by
  obtain ⟨cause, failed⟩ : ∃ cause, standard.check source context = .error cause :=
    exists_check_eq_error fails
  obtain ⟨lacks, defaultCause, defaultFails⟩ | ⟨complete, verdict, succeeds, holds⟩ :=
    check_standard_cases context
  · rw [← check_defaultRule] at defaultFails
    have decided := decide_of_error_of_error failed defaultFails
    refine ⟨⟨fun _ => lacks, fun _ => ⟨cause, defaultCause, ?_⟩⟩, fun _ => ?_, fun complete => ?_,
      rfl⟩
    · rw [decided]
    · rw [decided]
    · exact absurd lacks complete
  · rw [← check_defaultRule] at succeeds
    have decided := decide_of_error_of_ok failed succeeds
    refine ⟨⟨?_, fun lacks => absurd lacks complete⟩, fun lacks => absurd lacks complete,
      fun _ => ⟨⟨cause, ?_⟩, ?_⟩, rfl⟩
    · rintro ⟨_, _, defect⟩
      rw [decided] at defect
      cases defect
    · rw [decided]
    · rw [decided]
      exact holds

/-- Where there are 7 followers, a rule that is cut off leaves a defect when the days are not known,
and has a positive verdict by the default rule when the days are a truth value. -/
theorem standard_decide_of_failure_of_cut :
    (∃ cause defaultCause,
      (standard.decide "days <" fun name =>
          if name = "followers_count" then some (.number 7) else none).outcome =
        .defect cause defaultCause) ∧
    (∃ cause,
      (standard.decide "days <" fun name =>
          if name = "followers_count" then some (.number 7) else some (.boolean true)).outcome =
        .fallback cause) ∧
    DecisionRules.evaluate "days <" (fun name =>
      if name = "followers_count" then some (.number 7) else some (.boolean true)) = true := by
  have cut (context : Context) (tree : Expr) (read : Expr.parse .standard 64 "days <" = .ok tree) :
      ∀ value, tree.eval context ≠ .ok value :=
    absurd read (ne_ok_of_toOption_eq_none (by decide +kernel) tree)
  obtain ⟨defect, _⟩ := standard_decide_of_failure (cut fun name =>
    if name = "followers_count" then some (.number 7) else none)
  obtain ⟨_, _, decided, evaluated⟩ := standard_decide_of_failure (cut fun name =>
    if name = "followers_count" then some (.number 7) else some (.boolean true))
  have complete : ¬ StandardLacks fun name =>
      if name = "followers_count" then some (.number 7) else some (.boolean true) := by
    rintro (lacks | ⟨_, _, _, lacks⟩)
    · exact absurd lacks (by decide)
    · exact absurd lacks (by decide)
  obtain ⟨byDefault, holds⟩ := decided complete
  refine ⟨defect.mpr (.inr ⟨.number 7, rfl, by decide +kernel, rfl⟩), byDefault, ?_⟩
  rw [evaluated, holds]
  exact .inr ⟨.boolean true, rfl, by decide +kernel⟩

end Engine
end DecisionRules
