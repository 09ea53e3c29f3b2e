import DecisionRules.Proofs.Expr.Binarization
import DecisionRules.Proofs.Expr.Places

/-!
# Trees at other places

When the places of a tree are changed, and joins of places are changed with their parts, its runs
extend between the changed places of their operands.  The value of the tree stays the same, and an
error is the same error at its changed place.
-/

namespace DecisionRules

/-- An error whose place is changed. -/
def RuleError.mapSpan (change : Span → Span) : RuleError → RuleError
  | .malformed fault fragment span position => .malformed fault fragment (change span) position
  | .unknownVariable name span => .unknownVariable name (change span)
  | .divisionByZero span => .divisionByZero (change span)

/-! ## Results of runs -/

theorem mapError_ok (change : ε → ε) (value : α) :
    (Except.ok value).mapError change = .ok value := rfl

theorem mapError_error (change : ε → ε) (error : ε) :
    (Except.error error : Except ε α).mapError change = .error (change error) := rfl

/-- Joined results have the error of their operands. -/
theorem Connective.combine_mapError
    (connective : Connective)
    (change : RuleError → RuleError)
    (results : List (Except RuleError Value)) :
    connective.combine (results.map (Except.mapError change)) =
      (connective.combine results).mapError change := by
  induction results with
  | nil => rfl
  | cons result rest inductionHypothesis =>
      cases result with
      | error error => rfl
      | ok value =>
          by_cases settled : value.isTruthy = connective.decisive
          · simp [combine, mapError_ok, settled]
          · simpa [combine, mapError_ok, settled] using inductionHypothesis

/-- A chain with a value to start from has the error of its operands. -/
theorem Comparison.chain_mapError
    (change : RuleError → RuleError)
    (previous : Value)
    (later : List (Comparison × Except RuleError Value)) :
    chain previous (later.map (Prod.map id (Except.mapError change))) =
      (chain previous later).mapError change := by
  induction later generalizing previous with
  | nil => rfl
  | cons next rest inductionHypothesis =>
      obtain ⟨comparison, result⟩ := next
      cases result with
      | error error => rfl
      | ok value =>
          by_cases holds : comparison.holds previous value = true
          · simpa [chain, mapError_ok, holds] using inductionHypothesis value
          · simp [chain, mapError_ok, holds]

/-- A chain has the error of its operands. -/
theorem Comparison.combine_mapError
    (operators : List Comparison)
    (change : RuleError → RuleError)
    (results : List (Except RuleError Value)) :
    Comparison.combine operators (results.map (Except.mapError change)) =
      (Comparison.combine operators results).mapError change := by
  cases results with
  | nil => rfl
  | cons result rest =>
      cases result with
      | error error => rfl
      | ok first =>
          rw [List.map_cons]
          simp only [combine, mapError_ok]
          rw [List.zip_map_right]
          exact chain_mapError change first _

/-- A step of a computation fails where the second number stands. -/
theorem Arithmetic.apply_mapSpan
    (operator : Arithmetic)
    (change : Span → Span)
    (total number : Float)
    (place : Span) :
    operator.apply total number (change place) =
      (operator.apply total number place).mapError (RuleError.mapSpan change) := by
  cases operator with
  | divide =>
      by_cases zero : (number == 0) = true
      · simp [apply, zero, mapError_error, RuleError.mapSpan]
      · simp [apply, zero, mapError_ok]
  | _ => rfl

/-- A computation with a number to start from fails at an operand or at a divisor. -/
theorem Arithmetic.fold_mapSpan
    (change : Span → Span)
    (total : Float)
    (later : List (Arithmetic × Span × Except RuleError Value)) :
    fold total
        (later.map (Prod.map id (Prod.map change (Except.mapError (RuleError.mapSpan change))))) =
      (fold total later).mapError (RuleError.mapSpan change) := by
  induction later generalizing total with
  | nil => rfl
  | cons next rest inductionHypothesis =>
      obtain ⟨operator, place, result⟩ := next
      cases result with
      | error error => rfl
      | ok value =>
          simp only [List.map_cons, Prod.map, id, mapError_ok, fold, apply_mapSpan]
          cases operator.apply total value.asNumber place with
          | error error => rfl
          | ok total => exact inductionHypothesis total

/-- A computation fails at an operand or at a divisor. -/
theorem Arithmetic.combine_mapSpan
    (operators : List Arithmetic)
    (change : Span → Span)
    (results : List (Span × Except RuleError Value)) :
    Arithmetic.combine operators
        (results.map (Prod.map change (Except.mapError (RuleError.mapSpan change)))) =
      (Arithmetic.combine operators results).mapError (RuleError.mapSpan change) := by
  cases results with
  | nil => rfl
  | cons result rest =>
      obtain ⟨place, result⟩ := result
      cases result with
      | error error => rfl
      | ok first =>
          rw [List.map_cons]
          simp only [combine, Prod.map, mapError_ok]
          rw [List.zip_map_right]
          exact fold_mapSpan change first.asNumber _

/-! ## Whole trees -/

namespace Expr

variable {change : Span → Span} {tree : Expr}

/-- A run with operands extends between their changed places. -/
theorem joinAll_map_span_mapSpans
    (respects : Span.Respects change)
    {operands : List Expr}
    (two : 2 ≤ operands.length)
    (same : ∀ operand ∈ operands, (operand.mapSpans change).span = change operand.span) :
    Span.joinAll ((operands.map (mapSpans change)).map span) =
      change (Span.joinAll (operands.map span)) := by
  have nonempty : operands.map span ≠ [] := by
    obtain ⟨first, second, rest, rfl⟩ := exists_two two
    exact List.cons_ne_nil _ _
  rw [← respects.joinAll_map nonempty, List.map_map, List.map_map]
  exact congrArg Span.joinAll (List.map_congr_left same)

/-- A tree extends over its changed place. -/
theorem Aligned.span_mapSpans (respects : Span.Respects change) (aligned : tree.Aligned) :
    (tree.mapSpans change).span = change tree.span := by
  induction aligned with
  | leaf => rfl
  | group => rfl
  | negation => rfl
  | logical two _ inductionHypothesis =>
      rw [mapSpans, mapSpansAll_eq_map, span_logical, span_logical]
      exact joinAll_map_span_mapSpans respects two inductionHypothesis
  | comparison two _ _ inductionHypothesis =>
      rw [mapSpans, mapSpansAll_eq_map, span_comparison, span_comparison]
      exact joinAll_map_span_mapSpans respects two inductionHypothesis
  | arithmetic two _ _ inductionHypothesis =>
      rw [mapSpans, mapSpansAll_eq_map, span_arithmetic, span_arithmetic]
      exact joinAll_map_span_mapSpans respects two inductionHypothesis

/-- A tree at other places has the same value, and an error at its changed place. -/
theorem Aligned.eval_mapSpans
    (respects : Span.Respects change)
    (aligned : tree.Aligned)
    (context : Context) :
    (tree.mapSpans change).eval context =
      (tree.eval context).mapError (RuleError.mapSpan change) := by
  induction aligned with
  | @leaf operand place =>
      cases operand with
      | literal value => rfl
      | «variable» name =>
          simp only [mapSpans, eval_leaf, Operand.value]
          cases context name <;> rfl
  | group _ inductionHypothesis => exact inductionHypothesis
  | @negation inner _ _ inductionHypothesis =>
      rw [mapSpans, eval_negation, inductionHypothesis, eval_negation]
      cases inner.eval context <;> rfl
  | logical _ _ inductionHypothesis =>
      rw [mapSpans, mapSpansAll_eq_map, eval_logical, eval_logical, List.map_map,
        ← Connective.combine_mapError, List.map_map]
      exact congrArg _ (List.map_congr_left inductionHypothesis)
  | comparison _ _ _ inductionHypothesis =>
      rw [mapSpans, mapSpansAll_eq_map, eval_comparison, eval_comparison, List.map_map,
        ← Comparison.combine_mapError, List.map_map]
      exact congrArg _ (List.map_congr_left inductionHypothesis)
  | arithmetic _ _ alignedOperands inductionHypothesis =>
      rw [mapSpans, mapSpansAll_eq_map, eval_arithmetic, eval_arithmetic, List.map_map,
        ← Arithmetic.combine_mapSpan, List.map_map]
      apply congrArg
      apply List.map_congr_left
      intro operand member
      exact Prod.ext ((alignedOperands operand member).span_mapSpans respects)
        (inductionHypothesis operand member)

end Expr
end DecisionRules
