import DecisionRules.Expr.Evaluation

/-!
# Laws of connectives

Conditions are joined from left to right, and the first one that fails or is decisive settles the
result.  The usual laws hold all the same, and they say which failure comes out: a denied run is the
run of the denied conditions, joined by the other connective, and a run among the conditions of a
run with the same connective may be dissolved into them.
-/

namespace DecisionRules
namespace Connective

/-- The other connective. -/
def dual : Connective → Connective
  | .and => .or
  | .or => .and

@[simp] theorem decisive_dual (connective : Connective) :
    connective.dual.decisive = !connective.decisive := by
  cases connective <;> rfl

/-- Denied conditions are joined by the other connective to the denied result. -/
theorem combine_dual
    (connective : Connective)
    (results : List (Except RuleError Value)) :
    connective.dual.combine
        (results.map (Except.map fun value => .boolean !value.isTruthy)) =
      (connective.combine results).map fun value => .boolean !value.isTruthy := by
  induction results with
  | nil => simp [combine, Except.map]
  | cons result rest inductionHypothesis =>
      cases result with
      | error error => rfl
      | ok value =>
          -- The denial of a condition is decisive exactly when the condition is.
          by_cases settled : value.isTruthy = connective.decisive
          · simp [combine, Except.map, settled]
          · simpa [combine, Except.map, settled] using inductionHypothesis

/-- A joined result in front of other conditions may be dissolved into its own conditions. -/
theorem combine_combine_cons
    (connective : Connective)
    (inner rest : List (Except RuleError Value)) :
    connective.combine (connective.combine inner :: rest) = connective.combine (inner ++ rest) := by
  induction inner with
  | nil => simp [combine]
  | cons result inner inductionHypothesis =>
      cases result with
      | error error => rfl
      | ok value =>
          by_cases settled : value.isTruthy = connective.decisive
          · simp [combine, settled]
          · simpa [combine, settled] using inductionHypothesis

/-- Conditions that are joined to one result are joined to one result behind any others. -/
theorem combine_append_congr
    (connective : Connective)
    (before : List (Except RuleError Value))
    {results others : List (Except RuleError Value)}
    (same : connective.combine results = connective.combine others) :
    connective.combine (before ++ results) = connective.combine (before ++ others) := by
  induction before with
  | nil => exact same
  | cons result before inductionHypothesis =>
      cases result with
      | error error => rfl
      | ok value => rw [List.cons_append, List.cons_append, combine, combine, inductionHypothesis]

/-- A joined result anywhere among conditions may be dissolved into its own conditions. -/
theorem combine_splice
    (connective : Connective)
    (before inner after : List (Except RuleError Value)) :
    connective.combine (before ++ [connective.combine inner] ++ after) =
      connective.combine (before ++ inner ++ after) := by
  rw [List.append_assoc, List.append_assoc]
  exact connective.combine_append_congr before (connective.combine_combine_cons inner after)

end Connective

namespace Expr

/-- A denied run has the result of the denied conditions, joined by the other connective. -/
theorem eval_negation_logical
    (context : Context)
    (connective : Connective)
    (conditions : List (Expr × Span))
    (place : Span) :
    (Expr.negation (.logical connective (conditions.map Prod.fst)) place).eval context =
      (Expr.logical connective.dual
        (conditions.map fun condition => .negation condition.1 condition.2)).eval context := by
  rw [eval_negation, eval_logical, eval_logical, ← Connective.combine_dual]
  simp only [List.map_map, Function.comp_def, eval_negation]

/-- The laws of De Morgan hold, wherever the denials stand: a denied conjunction has the result of
the disjunction of the denied conditions, and a denied disjunction that of the conjunction.  And a
run among the conditions of a run with the same connective may be dissolved into them.  The results
are the same values, or the same errors at the same places, however many conditions there are. -/
theorem eval_denied_and_dissolved (context : Context) :
    (∀ (conditions : List (Expr × Span)) (place : Span),
      (Expr.negation (.logical .and (conditions.map Prod.fst)) place).eval context =
          (Expr.logical .or
            (conditions.map fun condition => .negation condition.1 condition.2)).eval context ∧
        (Expr.negation (.logical .or (conditions.map Prod.fst)) place).eval context =
          (Expr.logical .and
            (conditions.map fun condition => .negation condition.1 condition.2)).eval context) ∧
    ∀ (connective : Connective) (before inner after : List Expr),
      (Expr.logical connective (before ++ [.logical connective inner] ++ after)).eval context =
        (Expr.logical connective (before ++ inner ++ after)).eval context := by
  refine ⟨fun conditions place => ⟨eval_negation_logical context .and conditions place,
    eval_negation_logical context .or conditions place⟩, ?_⟩
  intro connective before inner after
  rw [eval_logical, eval_logical]
  simp only [List.map_append, List.map_cons, List.map_nil, eval_logical]
  exact connective.combine_splice _ _ _

end Expr
end DecisionRules
