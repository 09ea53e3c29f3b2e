import DecisionRules.Expr.Printer
import DecisionRules.Proofs.Expr.Skipping

/-!
# Surplus in runs

An operator of a run stands between two operands.  Trees that no text is read as may have operators
without a second operand, and operands without an operator before them.  Trimming cuts both off,
everywhere in a tree.  The trimmed tree has the same text and the same result; only where a division
by zero stands can change, because the place of a divisor takes in the operands that are cut off.

A chain, a computation and a printed run each pair operators with operands and stop with the last
pair, so that each of them has a law by which the surplus may be cut off.  Whole trees follow by
induction.
-/

namespace DecisionRules

/-- How many operators of a run stand between two operands. -/
def joints (operators : List α) (operands : List β) : Nat :=
  min operators.length (operands.length - 1)

@[simp] theorem joints_map_right (operators : List α) (operands : List β) (form : β → γ) :
    joints operators (operands.map form) = joints operators operands := by
  rw [joints, joints, List.length_map]

@[simp] theorem joints_map_left (operators : List α) (operands : List β) (form : α → γ) :
    joints (operators.map form) operands = joints operators operands := by
  rw [joints, joints, List.length_map]

/-- Operators and the operands behind the first one are paired as far as both go. -/
theorem zip_take_joints (operators : List α) (first : β) (rest : List β) :
    (operators.take (joints operators (first :: rest))).zip
        (rest.take (joints operators (first :: rest))) =
      operators.zip rest :=
  List.zip_eq_zip_take_min.symm

/-! ## Results and texts of runs -/

/-- A chain does not depend on its surplus. -/
theorem Comparison.combine_take_joints
    (operators : List Comparison)
    (results : List (Except RuleError Value)) :
    combine (operators.take (joints operators results))
        (results.take (joints operators results + 1)) =
      combine operators results := by
  cases results with
  | nil => rfl
  | cons first rest =>
      rw [List.take_succ_cons]
      cases first with
      | error error => rfl
      | ok value => rw [combine, combine, zip_take_joints]

/-- A computation does not depend on its surplus. -/
theorem Arithmetic.combine_take_joints
    (operators : List Arithmetic)
    (results : List (Span × Except RuleError Value)) :
    combine (operators.take (joints operators results))
        (results.take (joints operators results + 1)) =
      combine operators results := by
  cases results with
  | nil => rfl
  | cons first rest =>
      obtain ⟨place, first⟩ := first
      rw [List.take_succ_cons]
      cases first with
      | error error => rfl
      | ok value => rw [combine, combine, zip_take_joints]

namespace Expr

/-- The text of a run does not depend on its surplus. -/
theorem runText_take_joints (operands signs : List String) :
    runText (operands.take (joints signs operands + 1)) (signs.take (joints signs operands)) =
      runText operands signs := by
  cases operands with
  | nil => rfl
  | cons first rest => rw [List.take_succ_cons, runText, runText, zip_take_joints]

/-! ## Trees -/

mutual

/-- A tree whose chains and computations are cut off behind the last operator that stands between
two operands, together with its second operand. -/
def trim : Expr → Expr
  | .leaf operand place => .leaf operand place
  | .group inner place => .group inner.trim place
  | .negation inner place => .negation inner.trim place
  | .logical connective operands => .logical connective (trimAll operands)
  | .comparison operands operators =>
    .comparison ((trimAll operands).take (joints operators operands + 1))
      (operators.take (joints operators operands))
  | .arithmetic operands operators =>
    .arithmetic ((trimAll operands).take (joints operators operands + 1))
      (operators.take (joints operators operands))

/-- Several trees, each of which is trimmed. -/
def trimAll : List Expr → List Expr
  | [] => []
  | first :: rest => first.trim :: trimAll rest

end

@[simp] theorem trimAll_eq_map (operands : List Expr) : trimAll operands = operands.map trim := by
  induction operands with
  | nil => rfl
  | cons first rest inductionHypothesis => rw [trimAll, inductionHypothesis, List.map_cons]

/-- Trees without surplus: each chain and each computation has one operator fewer than operands, or
nothing at all. -/
inductive Trimmed : Expr → Prop
  | leaf {operand : Operand} {place : Span} : Trimmed (.leaf operand place)
  | group {inner : Expr} {place : Span} : inner.Trimmed → Trimmed (.group inner place)
  | negation {inner : Expr} {place : Span} : inner.Trimmed → Trimmed (.negation inner place)
  | logical {connective : Connective} {operands : List Expr} :
      (∀ operand ∈ operands, operand.Trimmed) →
      Trimmed (.logical connective operands)
  | comparison {operands : List Expr} {operators : List Comparison} :
      operators.length = operands.length - 1 →
      (∀ operand ∈ operands, operand.Trimmed) →
      Trimmed (.comparison operands operators)
  | arithmetic {operands : List Expr} {operators : List Arithmetic} :
      operators.length = operands.length - 1 →
      (∀ operand ∈ operands, operand.Trimmed) →
      Trimmed (.arithmetic operands operators)

/-- As many operators are left as have an operand on either side among those that are left. -/
theorem length_take_joints (operators : List α) (operands : List β) :
    (operators.take (joints operators operands)).length =
      (operands.take (joints operators operands + 1)).length - 1 := by
  simp only [joints, List.length_take]
  omega

mutual

/-- A trimmed tree has no surplus. -/
theorem trimmed_trim : (tree : Expr) → tree.trim.Trimmed
  | .leaf _ _ => .leaf
  | .group inner _ => .group inner.trimmed_trim
  | .negation inner _ => .negation inner.trimmed_trim
  | .logical _ operands => .logical (trimmed_of_mem_trimAll operands)
  | .comparison operands operators =>
      .comparison (by simpa using length_take_joints operators operands)
        fun operand member => trimmed_of_mem_trimAll operands operand (List.mem_of_mem_take member)
  | .arithmetic operands operators =>
      .arithmetic (by simpa using length_take_joints operators operands)
        fun operand member => trimmed_of_mem_trimAll operands operand (List.mem_of_mem_take member)

theorem trimmed_of_mem_trimAll :
    (operands : List Expr) → ∀ operand ∈ trimAll operands, operand.Trimmed
  | [] => List.forall_mem_nil _
  | first :: rest =>
      List.forall_mem_cons.mpr ⟨first.trimmed_trim, trimmed_of_mem_trimAll rest⟩

end

mutual

/-- Trimming a tree does not change its text. -/
theorem text_trim : (tree : Expr) → tree.trim.text = tree.text
  | .leaf _ _ => rfl
  | .group inner _ => by rw [trim, text_group, text_group, inner.text_trim]
  | .negation inner _ => by rw [trim, text_negation, text_negation, inner.text_trim]
  | .logical connective operands => by
      rw [trim, text_logical, text_logical, map_text_trimAll operands, trimAll_eq_map,
        List.length_map]
  | .comparison operands operators => by
      rw [trim, text_comparison, text_comparison, List.map_take, List.map_take,
        map_text_trimAll operands, ← runText_take_joints (operands.map text), joints_map_left,
        joints_map_right]
  | .arithmetic operands operators => by
      rw [trim, text_arithmetic, text_arithmetic, List.map_take, List.map_take,
        map_text_trimAll operands, ← runText_take_joints (operands.map text), joints_map_left,
        joints_map_right]

theorem map_text_trimAll :
    (operands : List Expr) → (trimAll operands).map text = operands.map text
  | [] => rfl
  | first :: rest => by
      rw [trimAll, List.map_cons, List.map_cons, first.text_trim, map_text_trimAll rest]

end

mutual

/-- Trimming a tree does not change its result, except where a division by zero stands. -/
theorem eval_trim (context : Context) :
    (tree : Expr) → SameButDivisor (tree.eval context) (tree.trim.eval context)
  | .leaf operand place => .same _
  | .group inner _ => inner.eval_trim context
  | .negation inner _ => respected_sameButDivisor.map_not (inner.eval_trim context)
  | .logical connective operands => by
      rw [trim, eval_logical, eval_logical]
      refine respected_sameButDivisor.connective_combine connective ?_
      rw [List.forall₂_map_left_iff, List.forall₂_map_right_iff]
      exact eval_trimAll context operands
  | .comparison operands operators => by
      have same : joints operators operands =
          joints operators ((trimAll operands).map (eval context)) := by simp
      rw [trim, eval_comparison, eval_comparison, List.map_take, same,
        Comparison.combine_take_joints]
      refine respected_sameButDivisor.comparison_combine operators ?_
      rw [List.forall₂_map_left_iff, List.forall₂_map_right_iff]
      exact eval_trimAll context operands
  | .arithmetic operands operators => by
      have same : joints operators operands =
          joints operators
            ((trimAll operands).map fun operand => (operand.span, operand.eval context)) := by
        simp
      rw [trim, eval_arithmetic, eval_arithmetic, List.map_take, same,
        Arithmetic.combine_take_joints]
      refine respected_sameButDivisor.arithmetic_combine operators ?_
      rw [List.forall₂_map_left_iff, List.forall₂_map_right_iff]
      exact (eval_trimAll context operands).imp fun _ _ same => ⟨trivial, same⟩

theorem eval_trimAll (context : Context) :
    (operands : List Expr) →
      List.Forall₂ (fun tree other => SameButDivisor (tree.eval context) (other.eval context))
        operands (trimAll operands)
  | [] => .nil
  | first :: rest => .cons (first.eval_trim context) (eval_trimAll context rest)

end

/-- Evaluation and printing ignore the same surplus.  Whatever a tree looks like, cutting its chains
and computations off behind the last operator that stands between two operands leaves a tree without
surplus, which has the same result in every context and the same text.  Only a division by zero may
stand somewhere else. -/
theorem sameButDivisor_and_text_trim (tree : Expr) :
    tree.trim.Trimmed ∧
      (∀ context, SameButDivisor (tree.eval context) (tree.trim.eval context)) ∧
      tree.trim.text = tree.text :=
  ⟨tree.trimmed_trim, fun context => tree.eval_trim context, tree.text_trim⟩

-- The divisor `0` extends over the operand that is cut off, which nothing computes with.
example :
    let tree := arithmetic
      [.leaf (.literal (.number 8)) ⟨0, 1⟩,
        .arithmetic
          [.leaf (.literal (.number 0)) ⟨4, 5⟩, .leaf (.variable "karma") ⟨8, 13⟩] []]
      [.divide, .add]
    tree.text = "8 / 0" ∧
      errorOf? (tree.eval fun _ => none) = some (.divisionByZero ⟨4, 13⟩) ∧
      errorOf? (tree.trim.eval fun _ => none) = some (.divisionByZero ⟨4, 5⟩) := by
  decide +kernel

end Expr
end DecisionRules
