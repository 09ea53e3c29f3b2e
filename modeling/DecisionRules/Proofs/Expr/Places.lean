import DecisionRules.Expr.Basic

/-!
# Places and leaves of trees

Two readings of a rule that differ in where its parts stand have the same tree up to its places.
The places of a tree can be changed all at once, and can be left out by putting all of them at the
origin.  The leaves of a tree, in reading order, have nothing to do with its places.
-/

namespace DecisionRules
namespace Expr

mutual

/-- A tree whose places are changed. -/
def mapSpans (change : Span → Span) : Expr → Expr
  | .leaf operand place => .leaf operand (change place)
  | .group inner place => .group (inner.mapSpans change) (change place)
  | .negation inner place => .negation (inner.mapSpans change) (change place)
  | .logical connective operands => .logical connective (mapSpansAll change operands)
  | .comparison operands operators => .comparison (mapSpansAll change operands) operators
  | .arithmetic operands operators => .arithmetic (mapSpansAll change operands) operators

/-- Several trees whose places are changed. -/
def mapSpansAll (change : Span → Span) : List Expr → List Expr
  | [] => []
  | first :: rest => first.mapSpans change :: mapSpansAll change rest

end

@[simp] theorem mapSpansAll_eq_map (change : Span → Span) (operands : List Expr) :
    mapSpansAll change operands = operands.map (mapSpans change) := by
  induction operands with
  | nil => rfl
  | cons first rest inductionHypothesis =>
      rw [mapSpansAll, inductionHypothesis, List.map_cons]

mutual

/-- A tree whose places are left as they are is the same tree. -/
theorem mapSpans_id : (tree : Expr) → tree.mapSpans id = tree
  | .leaf _ _ => rfl
  | .group inner _ => by rw [mapSpans, inner.mapSpans_id, id]
  | .negation inner _ => by rw [mapSpans, inner.mapSpans_id, id]
  | .logical _ operands => by rw [mapSpans, mapSpansAll_id operands]
  | .comparison operands _ => by rw [mapSpans, mapSpansAll_id operands]
  | .arithmetic operands _ => by rw [mapSpans, mapSpansAll_id operands]

theorem mapSpansAll_id : (operands : List Expr) → mapSpansAll id operands = operands
  | [] => rfl
  | first :: rest => by rw [mapSpansAll, first.mapSpans_id, mapSpansAll_id rest]

end

mutual

/-- The operands of a tree, in reading order. -/
def leaves : Expr → List Operand
  | .leaf operand _ => [operand]
  | .group inner _ => inner.leaves
  | .negation inner _ => inner.leaves
  | .logical _ operands => leavesAll operands
  | .comparison operands _ => leavesAll operands
  | .arithmetic operands _ => leavesAll operands

/-- The operands of several trees, in reading order. -/
def leavesAll : List Expr → List Operand
  | [] => []
  | first :: rest => first.leaves ++ leavesAll rest

end

@[simp] theorem leavesAll_eq_flatMap (operands : List Expr) :
    leavesAll operands = operands.flatMap leaves := by
  induction operands with
  | nil => rfl
  | cons first rest inductionHypothesis =>
      rw [leavesAll, inductionHypothesis, List.flatMap_cons]

mutual

/-- The leaves of a tree do not depend on its places. -/
theorem leaves_mapSpans (change : Span → Span) :
    (tree : Expr) → (tree.mapSpans change).leaves = tree.leaves
  | .leaf _ _ => rfl
  | .group inner _ => inner.leaves_mapSpans change
  | .negation inner _ => inner.leaves_mapSpans change
  | .logical _ operands => leavesAll_mapSpansAll change operands
  | .comparison operands _ => leavesAll_mapSpansAll change operands
  | .arithmetic operands _ => leavesAll_mapSpansAll change operands

theorem leavesAll_mapSpansAll (change : Span → Span) :
    (operands : List Expr) → leavesAll (mapSpansAll change operands) = leavesAll operands
  | [] => rfl
  | first :: rest => by
      rw [mapSpansAll, leavesAll, leavesAll, first.leaves_mapSpans change,
        leavesAll_mapSpansAll change rest]

end

/-- A tree without its places. -/
def unplaced (tree : Expr) : Expr :=
  tree.mapSpans fun _ => .origin

/-- Trees that are the same up to their places have the same leaves. -/
theorem leaves_eq_of_unplaced_eq {left right : Expr} (same : left.unplaced = right.unplaced) :
    left.leaves = right.leaves := by
  rw [← leaves_mapSpans (fun _ => .origin) left, ← leaves_mapSpans (fun _ => .origin) right]
  exact congrArg leaves same

end Expr
end DecisionRules
