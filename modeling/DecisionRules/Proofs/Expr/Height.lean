import DecisionRules.Expr.Evaluation

/-!
# Height of trees

The evaluation of a tree calls itself for the parts of the tree, so that its calls lie within one
another as deep as the tree is high.  The height counts the nodes on a longest path from the root
to a leaf.
-/

namespace DecisionRules
namespace Expr

mutual

/-- The number of nodes on a longest path from the root of a tree to a leaf. -/
def height : Expr → Nat
  | .leaf _ _ => 1
  | .group inner _ => inner.height + 1
  | .negation inner _ => inner.height + 1
  | .logical _ operands => heightAll operands + 1
  | .comparison operands _ => heightAll operands + 1
  | .arithmetic operands _ => heightAll operands + 1

/-- The number of nodes on a longest path from the root of one of several trees. -/
def heightAll : List Expr → Nat
  | [] => 0
  | first :: rest => max first.height (heightAll rest)

end

/-! ## Bounded evaluation -/

mutual

/-- The result of a tree in a context, where calls for trees lie at most `calls` deep within one
another.  There is none where deeper calls are needed. -/
def evalWithin (context : Context) (calls : Nat) : Expr → Option (Except RuleError Value)
  | .leaf operand place =>
    match calls with
    | 0 => none
    | _ + 1 => some (operand.value context place)
  | .group inner _ =>
    match calls with
    | 0 => none
    | calls + 1 => inner.evalWithin context calls
  | .negation inner _ =>
    match calls with
    | 0 => none
    | calls + 1 =>
      (inner.evalWithin context calls).map fun result =>
        result.map fun value => .boolean !value.isTruthy
  | .logical connective operands =>
    match calls with
    | 0 => none
    | calls + 1 => (evalsWithin context calls operands).map connective.combine
  | .comparison operands operators =>
    match calls with
    | 0 => none
    | calls + 1 => (evalsWithin context calls operands).map (Comparison.combine operators)
  | .arithmetic operands operators =>
    match calls with
    | 0 => none
    | calls + 1 =>
      (evalsWithin context calls operands).map fun results =>
        Arithmetic.combine operators ((operands.map span).zip results)

/-- The results of several trees in a context, each of them with calls at most `calls` deep. -/
def evalsWithin (context : Context) (calls : Nat) :
    List Expr → Option (List (Except RuleError Value))
  | [] => some []
  | first :: rest =>
    match first.evalWithin context calls, evalsWithin context calls rest with
    | some result, some results => some (result :: results)
    | _, _ => none

end

mutual

/-- As many calls as a tree is high are enough for its result, and fewer are not. -/
theorem evalWithin_eq (context : Context) (calls : Nat) :
    (tree : Expr) →
      tree.evalWithin context calls =
        if tree.height ≤ calls then some (tree.eval context) else none
  | .leaf operand place => by
      cases calls <;> simp [evalWithin, height]
  | .group inner place => by
      cases calls with
      | zero => simp [evalWithin, height]
      | succ calls => simp [evalWithin, height, inner.evalWithin_eq context calls]
  | .negation inner place => by
      cases calls with
      | zero => simp [evalWithin, height]
      | succ calls =>
          simp only [evalWithin, height, inner.evalWithin_eq context calls, eval_negation,
            Nat.add_le_add_iff_right]
          split <;> rfl
  | .logical connective operands => by
      cases calls with
      | zero => simp [evalWithin, height]
      | succ calls =>
          simp only [evalWithin, height, evalsWithin_eq context calls operands, eval,
            Nat.add_le_add_iff_right]
          split <;> rfl
  | .comparison operands operators => by
      cases calls with
      | zero => simp [evalWithin, height]
      | succ calls =>
          simp only [evalWithin, height, evalsWithin_eq context calls operands, eval,
            Nat.add_le_add_iff_right]
          split <;> rfl
  | .arithmetic operands operators => by
      cases calls with
      | zero => simp [evalWithin, height]
      | succ calls =>
          simp only [evalWithin, height, evalsWithin_eq context calls operands, eval,
            Nat.add_le_add_iff_right]
          split <;> rfl

theorem evalsWithin_eq (context : Context) (calls : Nat) :
    (operands : List Expr) →
      evalsWithin context calls operands =
        if heightAll operands ≤ calls then some (evals context operands) else none
  | [] => by simp [evalsWithin, heightAll, evals]
  | first :: rest => by
      rw [evalsWithin, first.evalWithin_eq context calls, evalsWithin_eq context calls rest,
        heightAll, evals]
      simp only [Nat.max_le]
      by_cases low : first.height ≤ calls
      · by_cases lowRest : heightAll rest ≤ calls
        · simp [low, lowRest]
        · simp [low, lowRest]
      · simp [low]

end

end Expr
end DecisionRules
