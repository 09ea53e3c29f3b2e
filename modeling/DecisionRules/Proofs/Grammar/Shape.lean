import DecisionRules.Proofs.Expr.Height
import DecisionRules.Proofs.Grammar.NestingLimit
import DecisionRules.Proofs.Grammar.Standalone

/-!
# Shape and height of the trees of rules

The productions of the grammar are layers, and each of them takes its operands from the tighter
ones.  So the kinds of two nodes of which one is a part of the other are ordered by how tight they
bind, as long as no parenthesis and no denial stands between them.  As there are six layers, a
path from the root of a tree to a leaf has at most six nodes for each level of nesting, however long
the rule text is.
-/

namespace DecisionRules

/-- The kinds of nodes. -/
inductive Kind
  | operand
  | group
  /-- A run with `*` and `/`. -/
  | product
  /-- A run with `+` and `-`. -/
  | sum
  | comparison
  | negation
  /-- A run with `and`. -/
  | conjunction
  /-- A run with `or`. -/
  | disjunction
  deriving DecidableEq

namespace Kind

/-- The kinds of nodes that may be the parts of a node. -/
def parts : Kind → List Kind
  | .operand => []
  | .group =>
    [.operand, .group, .product, .sum, .comparison, .negation, .conjunction, .disjunction]
  | .product => [.operand, .group]
  | .sum => [.operand, .group, .product]
  | .comparison => [.operand, .group, .product, .sum]
  | .negation | .conjunction => [.operand, .group, .product, .sum, .comparison, .negation]
  | .disjunction => [.operand, .group, .product, .sum, .comparison, .negation, .conjunction]

/-- The layer of the grammar that nodes of a kind come from, counted from the tightest one. -/
def layer : Kind → Nat
  | .operand | .group => 1
  | .product => 2
  | .sum => 3
  | .comparison | .negation => 4
  | .conjunction => 5
  | .disjunction => 6

theorem layer_le (kind : Kind) : kind.layer ≤ 6 := by
  cases kind <;> decide

/-- The operand of a denial comes from the first four layers. -/
theorem layer_le_of_mem_negation {part : Kind} (member : part ∈ negation.parts) :
    part.layer ≤ 4 := by
  revert member
  cases part <;> decide

/-- The operands of a run come from tighter layers. -/
theorem layer_lt_of_mem_parts
    {kind part : Kind}
    (run : kind ≠ .group ∧ kind ≠ .negation)
    (member : part ∈ kind.parts) :
    part.layer < kind.layer := by
  revert run member
  cases kind <;> cases part <;> decide

end Kind

namespace Expr

/-- The kind of a node.  A run that computes with operators of two layers is of no kind. -/
def kind? : Expr → Option Kind
  | .leaf _ _ => some .operand
  | .group _ _ => some .group
  | .negation _ _ => some .negation
  | .comparison _ _ => some .comparison
  | .logical .and _ => some .conjunction
  | .logical .or _ => some .disjunction
  | .arithmetic _ operators =>
    if ∀ operator ∈ operators, operator = .multiply ∨ operator = .divide then some .product
    else if ∀ operator ∈ operators, operator = .add ∨ operator = .subtract then some .sum
    else none

/-- The nodes right below the root of a tree. -/
def parts : Expr → List Expr
  | .group inner _ => [inner]
  | .negation inner _ => [inner]
  | tree => tree.operands

/-- The kind of a node is one of several. -/
def IsOf (kinds : List Kind) (tree : Expr) : Prop :=
  ∃ kind ∈ kinds, tree.kind? = some kind

/-- A node has a kind, and its parts are of the kinds that go with it. -/
def Layered (node : Expr) : Prop :=
  ∃ kind, node.kind? = some kind ∧ ∀ part ∈ node.parts, part.IsOf kind.parts

theorem Layered.isOf_parts
    {node : Expr}
    {kind : Kind}
    (layered : node.Layered)
    (same : node.kind? = some kind) :
    ∀ part ∈ node.parts, part.IsOf kind.parts := by
  obtain ⟨other, sameOther, parts⟩ := layered
  obtain rfl := Option.some.inj (sameOther.symm.trans same)
  exact parts

theorem IsOf.mono
    {kinds wider : List Kind}
    {tree : Expr}
    (isOf : tree.IsOf kinds)
    (within : kinds ⊆ wider) :
    tree.IsOf wider := by
  obtain ⟨kind, member, same⟩ := isOf
  exact ⟨kind, within member, same⟩

end Expr

/-! ## Phrases -/

namespace Grammar

/-- The kind of the runs of a level. -/
def Level.kind : Level → Kind
  | .product => .product
  | .sum => .sum
  | .comparison => .comparison
  | .conjunction => .conjunction
  | .disjunction => .disjunction

/-- The kinds of the trees of a symbol. -/
def Nonterminal.kinds : Nonterminal → List Kind
  | .primary => Kind.product.parts
  | .run .product => Kind.sum.parts
  | .run .sum => Kind.comparison.parts
  | .run .comparison => [.operand, .group, .product, .sum, .comparison]
  | .condition => Kind.conjunction.parts
  | .run .conjunction => Kind.disjunction.parts
  | .run .disjunction => Kind.group.parts

theorem Level.parts_kind (level : Level) : level.kind.parts = level.operand.kinds := by
  cases level <;> rfl

theorem Level.kind_mem (level : Level) : level.kind ∈ (Nonterminal.run level).kinds := by
  cases level <;> decide

theorem Level.kinds_operand_subset (level : Level) :
    level.operand.kinds ⊆ (Nonterminal.run level).kinds := by
  cases level <;> decide

/-- The operators of a run are operators of its level. -/
theorem Later.exists_spelled {level : Level} {operator : level.Operator} :
    (later : Later level) →
      operator ∈ later.operators →
      ∃ terminal, (terminal, operator) ∈ level.operators
  | .done, member => by cases member
  | .more sign next spelled _ rest, member => by
      obtain rfl | memberRest := List.mem_cons.mp member
      · exact ⟨sign.terminal, spelled⟩
      · exact rest.exists_spelled memberRest

/-- A node for two operands or more is of the kind of its level. -/
theorem Level.kind?_node
    (level : Level)
    (first second : Expr)
    (later : List Expr)
    (operator : level.Operator)
    (operators : List level.Operator)
    (spelled : ∀ one ∈ operator :: operators, ∃ terminal, (terminal, one) ∈ level.operators) :
    (level.node first (second :: later) (operator :: operators)).kind? = some level.kind := by
  cases level with
  | product =>
      refine if_pos fun one member => ?_
      obtain ⟨terminal, listed⟩ := spelled one member
      simp only [Level.operators, List.mem_cons, Prod.mk.injEq, List.not_mem_nil, or_false]
        at listed
      exact listed.imp And.right And.right
  | sum =>
      have additive : ∀ one ∈ operator :: operators, one = .add ∨ one = .subtract := by
        intro one member
        obtain ⟨terminal, listed⟩ := spelled one member
        simp only [Level.operators, List.mem_cons, Prod.mk.injEq, List.not_mem_nil, or_false]
          at listed
        exact listed.imp And.right And.right
      refine (if_neg fun multiplicative => ?_).trans (if_pos additive)
      obtain rfl | rfl := additive operator List.mem_cons_self
      · simpa using multiplicative .add List.mem_cons_self
      · simpa using multiplicative .subtract List.mem_cons_self
  | comparison => rfl
  | conjunction => rfl
  | disjunction => rfl

/-- The parts of a node for two operands or more are the operands. -/
theorem Level.parts_node
    (level : Level)
    (first second : Expr)
    (later : List Expr)
    (operators : List level.Operator) :
    (level.node first (second :: later) operators).parts = first :: second :: later := by
  cases level <;> rfl

/-- A run takes its operands from tighter layers. -/
theorem Level.isOf_node
    {level : Level}
    {first : Expr}
    {later : List Expr}
    {operators : List level.Operator}
    (between : operators.length = later.length)
    (spelled : ∀ operator ∈ operators, ∃ terminal, (terminal, operator) ∈ level.operators)
    (operands : ∀ operand ∈ first :: later,
      operand.IsOf level.operand.kinds ∧ ∀ node ∈ operand.nodes, node.Layered) :
    (level.node first later operators).IsOf (Nonterminal.run level).kinds ∧
      ∀ node ∈ (level.node first later operators).nodes, node.Layered := by
  cases later with
  | nil =>
      have single : level.node first [] operators = first := by cases level <;> rfl
      rw [single]
      obtain ⟨isOf, layered⟩ := operands first List.mem_cons_self
      exact ⟨isOf.mono level.kinds_operand_subset, layered⟩
  | cons second later =>
      cases operators with
      | nil => cases between
      | cons operator operators =>
          have kind := level.kind?_node first second later operator operators spelled
          refine ⟨⟨level.kind, level.kind_mem, kind⟩, fun node member => ?_⟩
          obtain rfl | ⟨operand, memberOperand, inside⟩ := Level.mem_nodes_node member
          · refine ⟨level.kind, kind, fun part memberPart => ?_⟩
            rw [level.parts_node] at memberPart
            rw [level.parts_kind]
            exact (operands part memberPart).1
          · exact (operands operand memberOperand).2 node inside

mutual

/-- The nodes of a phrase are layered, and its root is of a kind that goes with the symbol. -/
theorem Phrase.isOf_tree {symbol : Nonterminal} (vocabulary : Vocabulary) :
    (phrase : Phrase symbol) →
      (phrase.tree vocabulary).IsOf symbol.kinds ∧
        ∀ node ∈ (phrase.tree vocabulary).nodes, node.Layered
  | .operand token isOperand => by
      refine ⟨⟨.operand, by decide, rfl⟩, fun node member => ?_⟩
      obtain rfl := List.mem_singleton.mp member
      exact ⟨.operand, rfl, fun part none => by cases none⟩
  | .group opening opens inner closing closes => by
      obtain ⟨isOf, layered⟩ := inner.isOf_tree vocabulary
      refine ⟨⟨.group, by decide, rfl⟩, List.forall_mem_cons.mpr ⟨?_, layered⟩⟩
      exact ⟨.group, rfl, List.forall_mem_singleton.mpr isOf⟩
  | .denial sign denies inner => by
      obtain ⟨isOf, layered⟩ := inner.isOf_tree vocabulary
      refine ⟨⟨.negation, by decide, rfl⟩, List.forall_mem_cons.mpr ⟨?_, layered⟩⟩
      exact ⟨.negation, rfl, List.forall_mem_singleton.mpr isOf⟩
  | .plain inner => by
      obtain ⟨isOf, layered⟩ := inner.isOf_tree vocabulary
      exact ⟨isOf.mono (by decide), layered⟩
  | .run first later =>
      Level.isOf_node (later.length_operators vocabulary) (fun _ => later.exists_spelled)
        (List.forall_mem_cons.mpr ⟨first.isOf_tree vocabulary, later.isOf_trees vocabulary⟩)

theorem Later.isOf_trees {level : Level} (vocabulary : Vocabulary) :
    (later : Later level) →
      ∀ operand ∈ later.trees vocabulary,
        operand.IsOf level.operand.kinds ∧ ∀ node ∈ operand.nodes, node.Layered
  | .done => by simp [Later.trees]
  | .more _ _ _ operand rest =>
      List.forall_mem_cons.mpr ⟨operand.isOf_tree vocabulary, rest.isOf_trees vocabulary⟩

end

end Grammar

/-! ## Height -/

namespace Expr

mutual

/-- A tree is at most as high as its layer, with six more nodes for each level of nesting. -/
theorem height_le {kind : Kind} :
    (tree : Expr) →
      (∀ node ∈ tree.nodes, node.Layered) →
      tree.kind? = some kind →
      tree.height ≤ kind.layer + 6 * tree.nesting
  | .leaf operand place, _, same => by
      cases same
      exact Nat.le_refl _
  | .group inner place, layered, same => by
      cases same
      obtain ⟨root, layeredInner⟩ := List.forall_mem_cons.mp layered
      obtain ⟨kind, _, kindInner⟩ := root.isOf_parts rfl inner List.mem_cons_self
      have bound := inner.height_le layeredInner kindInner
      have top := kind.layer_le
      simp only [height, nesting, Kind.layer]
      omega
  | .negation inner place, layered, same => by
      cases same
      obtain ⟨root, layeredInner⟩ := List.forall_mem_cons.mp layered
      obtain ⟨kind, member, kindInner⟩ := root.isOf_parts rfl inner List.mem_cons_self
      have bound := inner.height_le layeredInner kindInner
      have top := Kind.layer_le_of_mem_negation member
      simp only [height, nesting, Kind.layer]
      omega
  | .logical connective operands, layered, same => by
      obtain ⟨root, layeredOperands⟩ := List.forall_mem_cons.mp layered
      have run : kind ≠ .group ∧ kind ≠ .negation := by
        cases connective <;> cases same <;> decide
      exact heightAll_lt operands layeredOperands run (root.isOf_parts same)
  | .comparison operands operators, layered, same => by
      obtain ⟨root, layeredOperands⟩ := List.forall_mem_cons.mp layered
      have run : kind ≠ .group ∧ kind ≠ .negation := by
        cases same
        decide
      exact heightAll_lt operands layeredOperands run (root.isOf_parts same)
  | .arithmetic operands operators, layered, same => by
      obtain ⟨root, layeredOperands⟩ := List.forall_mem_cons.mp layered
      have run : kind ≠ .group ∧ kind ≠ .negation := by
        rw [kind?] at same
        split at same
        · cases same
          decide
        · split at same <;> cases same
          decide
      exact heightAll_lt operands layeredOperands run (root.isOf_parts same)

theorem heightAll_lt {kind : Kind} :
    (operands : List Expr) →
      (∀ node ∈ nodesAll operands, node.Layered) →
      kind ≠ .group ∧ kind ≠ .negation →
      (∀ operand ∈ operands, operand.IsOf kind.parts) →
      heightAll operands < kind.layer + 6 * nestingAll operands
  | [], _, _, _ => by
      cases kind <;> decide
  | first :: rest, layered, run, parts => by
      obtain ⟨layeredFirst, layeredRest⟩ := List.forall_mem_append.mp layered
      obtain ⟨⟨part, member, same⟩, partsRest⟩ := List.forall_mem_cons.mp parts
      have bound := first.height_le layeredFirst same
      have boundRest := heightAll_lt rest layeredRest run partsRest
      have tighter := Kind.layer_lt_of_mem_parts run member
      simp only [heightAll, nestingAll]
      omega

end

/-- The tree of a rule is aligned and layered, and it is at most six nodes high for each level that
the limit of nesting allows for, so that as many calls are enough to evaluate it. -/
theorem layered_of_parse
    {vocabulary : Vocabulary}
    {maxDepth : Nat}
    {source : String}
    {tree : Expr}
    (read : parse vocabulary maxDepth source = .ok tree) :
    tree.Aligned ∧
      (∀ node ∈ tree.nodes, node.Layered) ∧
      tree.height ≤ 6 * (maxDepth + 1) ∧
      ∀ context, tree.evalWithin context (6 * (maxDepth + 1)) = some (tree.eval context) := by
  have within : tree.nesting ≤ maxDepth := (parse_eq_ok_iff_nesting_le read maxDepth).mp read
  obtain ⟨phrase, _, rfl, _⟩ := parse_eq_ok_iff_tiles.mp read
  obtain ⟨⟨kind, _, same⟩, layered⟩ := phrase.isOf_tree vocabulary
  have low : (phrase.tree vocabulary).height ≤ 6 * (maxDepth + 1) := by
    have bound := (phrase.tree vocabulary).height_le layered same
    have top := kind.layer_le
    omega
  refine ⟨aligned_of_parse read, layered, low, fun context => ?_⟩
  rw [evalWithin_eq, if_pos low]

/-- The rule `A * B + C < D and E or F` has a node of each layer, and it is as high as a rule
without nesting can be. -/
theorem layered_of_parse_of_all_layers :
    ∃ tree,
      parse .standard 0 "A * B + C < D and E or F" = .ok tree ∧
        tree.height = 6 ∧
        (∀ node ∈ tree.nodes, node.Layered) ∧
        tree.evalWithin (fun _ => none) 6 = some (tree.eval fun _ => none) := by
  have high : (parse .standard 0 "A * B + C < D and E or F").map height = .ok 6 := by
    decide +kernel
  cases read : parse .standard 0 "A * B + C < D and E or F" with
  | error error =>
      rw [read] at high
      cases high
  | ok tree =>
      rw [read] at high
      obtain ⟨_, layered, _, evaluated⟩ := layered_of_parse read
      exact ⟨tree, rfl, Except.ok.inj high, layered, evaluated fun _ => none⟩

end Expr
end DecisionRules
