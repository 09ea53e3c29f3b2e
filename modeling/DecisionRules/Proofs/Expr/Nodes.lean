import DecisionRules.Expr.Basic
import DecisionRules.Proofs.Text.Span

/-!
# Nodes of trees

The nodes of a tree are the tree itself and the nodes of its parts.  The operands of a run are
parts of it, and the run extends from the first of them to the last one.
-/

namespace DecisionRules
namespace Expr

mutual

/-- The nodes of a tree, each one before its parts. -/
def nodes : Expr → List Expr
  | .leaf operand place => [.leaf operand place]
  | .group inner place => .group inner place :: inner.nodes
  | .negation inner place => .negation inner place :: inner.nodes
  | .logical connective operands => .logical connective operands :: nodesAll operands
  | .comparison operands operators => .comparison operands operators :: nodesAll operands
  | .arithmetic operands operators => .arithmetic operands operators :: nodesAll operands

/-- The nodes of several trees. -/
def nodesAll : List Expr → List Expr
  | [] => []
  | first :: rest => first.nodes ++ nodesAll rest

end

@[simp] theorem nodesAll_eq_flatMap (operands : List Expr) :
    nodesAll operands = operands.flatMap nodes := by
  induction operands with
  | nil => rfl
  | cons first rest inductionHypothesis =>
      rw [nodesAll, inductionHypothesis, List.flatMap_cons]

/-- A tree is a node of itself. -/
theorem mem_nodes_self (tree : Expr) : tree ∈ tree.nodes := by
  cases tree <;> exact List.mem_cons_self

mutual

/-- The nodes of a part of a tree are nodes of the tree. -/
theorem nodes_subset_of_mem_nodes {node : Expr} :
    (tree : Expr) → node ∈ tree.nodes → node.nodes ⊆ tree.nodes
  | .leaf operand place, member => by
      obtain rfl := List.mem_singleton.mp member
      exact List.Subset.refl _
  | .group inner place, member => by
      obtain rfl | inside := List.mem_cons.mp member
      · exact List.Subset.refl _
      · exact List.subset_cons_of_subset _ (nodes_subset_of_mem_nodes inner inside)
  | .negation inner place, member => by
      obtain rfl | inside := List.mem_cons.mp member
      · exact List.Subset.refl _
      · exact List.subset_cons_of_subset _ (nodes_subset_of_mem_nodes inner inside)
  | .logical connective operands, member => by
      obtain rfl | inside := List.mem_cons.mp member
      · exact List.Subset.refl _
      · exact List.subset_cons_of_subset _ (nodes_subset_of_mem_nodesAll operands inside)
  | .comparison operands operators, member => by
      obtain rfl | inside := List.mem_cons.mp member
      · exact List.Subset.refl _
      · exact List.subset_cons_of_subset _ (nodes_subset_of_mem_nodesAll operands inside)
  | .arithmetic operands operators, member => by
      obtain rfl | inside := List.mem_cons.mp member
      · exact List.Subset.refl _
      · exact List.subset_cons_of_subset _ (nodes_subset_of_mem_nodesAll operands inside)

theorem nodes_subset_of_mem_nodesAll {node : Expr} :
    (operands : List Expr) → node ∈ nodesAll operands → node.nodes ⊆ nodesAll operands
  | [], member => by cases member
  | first :: rest, member => by
      obtain memberFirst | memberRest := List.mem_append.mp member
      · exact List.subset_append_of_subset_left _ (nodes_subset_of_mem_nodes first memberFirst)
      · exact List.subset_append_of_subset_right _ (nodes_subset_of_mem_nodesAll rest memberRest)

end

/-- The operands of a run. -/
def operands : Expr → List Expr
  | .logical _ operands => operands
  | .comparison operands _ => operands
  | .arithmetic operands _ => operands
  | _ => []

/-- A run extends from its first operand to its last one. -/
theorem span_eq_joinAll_operands {tree : Expr} (run : tree.operands ≠ []) :
    tree.span = Span.joinAll (tree.operands.map span) := by
  cases tree with
  | logical connective operands => exact span_logical connective operands
  | comparison operands operators => exact span_comparison operands operators
  | arithmetic operands operators => exact span_arithmetic operands operators
  | _ => exact absurd rfl run

end Expr
end DecisionRules
