import DecisionRules.Expr.Evaluation

/-!
# Rearranged conditions

Joined conditions stop at the first one that fails or is decisive, so that another order of the same
conditions may evaluate others of them.  What a run that succeeds comes to can be said without the
order: it is undecided when no condition is decisive, and decided only by one that is.  So the order
has a part in whether a run fails, and in nothing else.
-/

namespace DecisionRules
namespace Connective

variable {connective : Connective} {results others : List (Except RuleError Value)}

/-- Joined conditions are undecided when all of them succeed and none is decisive. -/
theorem combine_eq_undecided_iff :
    connective.combine results = .ok (.boolean !connective.decisive) ↔
      ∀ result ∈ results,
        ∃ condition, result = .ok condition ∧ condition.isTruthy ≠ connective.decisive := by
  induction results with
  | nil => simp [combine]
  | cons result rest inductionHypothesis =>
      rw [List.forall_mem_cons, ← inductionHypothesis]
      cases result with
      | error error => simp [combine]
      | ok first =>
          by_cases settled : first.isTruthy = connective.decisive
          · simp [combine, settled]
          · simp [combine, settled]

/-- Joined conditions that succeed are decided or undecided. -/
theorem eq_or_eq_of_combine
    {value : Value}
    (succeeds : connective.combine results = .ok value) :
    value = .boolean connective.decisive ∨ value = .boolean !connective.decisive := by
  induction results with
  | nil => exact .inr (Except.ok.inj succeeds).symm
  | cons result rest inductionHypothesis =>
      cases result with
      | error error => cases succeeds
      | ok first =>
          rw [combine] at succeeds
          split at succeeds
          · exact .inl (Except.ok.inj succeeds).symm
          · exact inductionHypothesis succeeds

/-- Joined conditions succeed when each of them does. -/
theorem exists_combine_eq_ok
    (succeed : ∀ result ∈ results, ∃ condition, result = .ok condition) :
    ∃ value, connective.combine results = .ok value := by
  induction results with
  | nil => exact ⟨_, rfl⟩
  | cons result rest inductionHypothesis =>
      obtain ⟨⟨first, rfl⟩, succeedRest⟩ := List.forall_mem_cons.mp succeed
      rw [combine]
      split
      · exact ⟨_, rfl⟩
      · exact inductionHypothesis succeedRest

/-- Joined conditions that are undecided in one order are undecided in any. -/
theorem combine_eq_undecided_of_perm
    (rearranged : results.Perm others)
    (undecided : connective.combine results = .ok (.boolean !connective.decisive)) :
    connective.combine others = .ok (.boolean !connective.decisive) := by
  rw [combine_eq_undecided_iff] at undecided ⊢
  exact fun result member => undecided result (rearranged.mem_iff.mpr member)

/-- Joined conditions that succeed in two orders have the same result in both. -/
theorem combine_eq_of_perm
    {value other : Value}
    (rearranged : results.Perm others)
    (succeeds : connective.combine results = .ok value)
    (succeedsOther : connective.combine others = .ok other) :
    value = other := by
  obtain rfl | rfl := eq_or_eq_of_combine succeeds
  · obtain rfl | rfl := eq_or_eq_of_combine succeedsOther
    · rfl
    · have undecided := combine_eq_undecided_of_perm rearranged.symm succeedsOther
      exact Except.ok.inj (succeeds.symm.trans undecided)
  · have undecided := combine_eq_undecided_of_perm rearranged succeeds
    exact Except.ok.inj (undecided.symm.trans succeedsOther)

end Connective

namespace Expr

/-- The order of the conditions of a run matters only for failures: two orders that succeed have the
same result, and both succeed when each of the conditions does. -/
theorem eval_logical_of_perm
    (context : Context)
    (connective : Connective)
    {conditions others : List Expr}
    (rearranged : conditions.Perm others) :
    (∀ value other,
      (Expr.logical connective conditions).eval context = .ok value →
        (Expr.logical connective others).eval context = .ok other → value = other) ∧
    ((∀ condition ∈ conditions, ∃ value, condition.eval context = .ok value) →
      ∃ value,
        (Expr.logical connective conditions).eval context = .ok value ∧
          (Expr.logical connective others).eval context = .ok value) := by
  have rearrangedResults := rearranged.map (eval context)
  rw [eval_logical, eval_logical]
  refine ⟨fun value other => Connective.combine_eq_of_perm rearrangedResults, fun succeed => ?_⟩
  have succeedResults : ∀ result ∈ conditions.map (eval context),
      ∃ value, result = .ok value := by
    simpa only [List.forall_mem_map] using succeed
  have succeedOthers : ∀ result ∈ others.map (eval context), ∃ value, result = .ok value :=
    fun result member => succeedResults result (rearrangedResults.mem_iff.mpr member)
  obtain ⟨value, succeeds⟩ :
      ∃ value, connective.combine (conditions.map (eval context)) = .ok value :=
    Connective.exists_combine_eq_ok succeedResults
  obtain ⟨other, succeedsOther⟩ :
      ∃ other, connective.combine (others.map (eval context)) = .ok other :=
    Connective.exists_combine_eq_ok succeedOthers
  obtain rfl := Connective.combine_eq_of_perm rearrangedResults succeeds succeedsOther
  exact ⟨value, succeeds, succeedsOther⟩

/-- The conjunction of a truth, a falsehood and an unbound variable is false in both orders in which
the falsehood stands before the variable, and a disjunction of two numbers succeeds in both
orders. -/
theorem eval_logical_of_perm_of_skipped :
    (∀ value other,
      (Expr.logical .and
          [.leaf (.literal (.boolean true)) ⟨0, 4⟩, .leaf (.literal (.boolean false)) ⟨9, 14⟩,
            .leaf (.variable "A") ⟨19, 20⟩]).eval (fun _ => none) = .ok value →
        (Expr.logical .and
            [.leaf (.literal (.boolean false)) ⟨9, 14⟩, .leaf (.literal (.boolean true)) ⟨0, 4⟩,
              .leaf (.variable "A") ⟨19, 20⟩]).eval (fun _ => none) = .ok other →
          value = other) ∧
      ∃ value,
        (Expr.logical .or
            [.leaf (.literal (.number 0)) ⟨0, 1⟩, .leaf (.literal (.number 2)) ⟨5, 6⟩]).eval
              (fun _ => none) = .ok value ∧
          (Expr.logical .or
              [.leaf (.literal (.number 2)) ⟨5, 6⟩, .leaf (.literal (.number 0)) ⟨0, 1⟩]).eval
                (fun _ => none) = .ok value :=
  ⟨(eval_logical_of_perm (fun _ => none) .and (.swap ..)).1,
    (eval_logical_of_perm (fun _ => none) .or (.swap ..)).2
      (List.forall_mem_cons.mpr ⟨⟨_, rfl⟩, List.forall_mem_singleton.mpr ⟨_, rfl⟩⟩)⟩

end Expr
end DecisionRules
