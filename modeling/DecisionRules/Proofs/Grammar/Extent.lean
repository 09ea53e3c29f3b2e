import DecisionRules.Proofs.Expr.Binarization
import DecisionRules.Proofs.Expr.Nodes
import DecisionRules.Proofs.Grammar.Phrase

/-!
# Shape and extent of the trees of phrases

The runs in the tree of a phrase have one operator between neighbouring operands.  The tree
extends from the first token of the phrase to its last one.  Where the tokens stand one after
another, so do the operands of a run, and each of them lies within the run.
-/

namespace DecisionRules
namespace Grammar

/-! ## Shape -/

/-- The tree of a run with an operator before each later operand is aligned. -/
theorem Level.aligned_node
    (level : Level)
    {first : Expr}
    {later : List Expr}
    {operators : List level.Operator}
    (between : operators.length = later.length)
    (aligned : ∀ operand ∈ first :: later, operand.Aligned) :
    (level.node first later operators).Aligned := by
  cases later with
  | nil => cases level <;> exact aligned first List.mem_cons_self
  | cons second later =>
      have two : 2 ≤ (first :: second :: later).length := by simp
      have fewer : operators.length + 1 = (first :: second :: later).length := by
        rw [between]
        rfl
      cases level with
      | product => exact .arithmetic two fewer aligned
      | sum => exact .arithmetic two fewer aligned
      | comparison => exact .comparison two fewer aligned
      | conjunction => exact .logical two aligned
      | disjunction => exact .logical two aligned

mutual

/-- The tree of a phrase is aligned. -/
theorem Phrase.aligned_tree {symbol : Nonterminal} (vocabulary : Vocabulary) :
    (phrase : Phrase symbol) → (phrase.tree vocabulary).Aligned
  | .operand _ _ => .leaf
  | .group _ _ inner _ _ => .group (inner.aligned_tree vocabulary)
  | .denial _ _ inner => .negation (inner.aligned_tree vocabulary)
  | .plain inner => inner.aligned_tree vocabulary
  | @Phrase.run level first later =>
      level.aligned_node (later.length_operators vocabulary)
        (List.forall_mem_cons.mpr ⟨first.aligned_tree vocabulary, later.aligned_trees vocabulary⟩)

theorem Later.aligned_trees {level : Level} (vocabulary : Vocabulary) :
    (later : Later level) → ∀ operand ∈ later.trees vocabulary, operand.Aligned
  | .done => by simp [Later.trees]
  | .more _ _ _ operand rest =>
      List.forall_mem_cons.mpr ⟨operand.aligned_tree vocabulary, rest.aligned_trees vocabulary⟩

end

/-! ## Extent -/

/-- A phrase has tokens. -/
theorem Phrase.tokens_ne_nil {symbol : Nonterminal} (phrase : Phrase symbol) :
    phrase.tokens ≠ [] := by
  obtain ⟨token, rest, spelled, _⟩ := phrase.exists_tokens_cons
  rw [spelled]
  exact List.cons_ne_nil token rest

theorem Phrase.map_span_ne_nil {symbol : Nonterminal} (phrase : Phrase symbol) :
    phrase.tokens.map Token.span ≠ [] := by
  rw [Ne, List.map_eq_nil_iff]
  exact phrase.tokens_ne_nil

/-- The tree of a run extends from its first operand to its last one. -/
theorem Level.span_node
    (level : Level)
    (first : Expr)
    (later : List Expr)
    (operators : List level.Operator) :
    (level.node first later operators).span =
      Span.joinAll (first.span :: later.map Expr.span) := by
  cases later with
  | nil => cases level <;> rfl
  | cons second later => cases level <;> simp [Level.node]

mutual

/-- The tree of a phrase extends from its first token to its last one. -/
theorem Phrase.span_tree {symbol : Nonterminal} (vocabulary : Vocabulary) :
    (phrase : Phrase symbol) →
      (phrase.tree vocabulary).span = Span.joinAll (phrase.tokens.map Token.span)
  | .operand _ _ => rfl
  | .group opening _ inner closing _ => by
      rw [Phrase.tokens, List.map_cons, List.map_append, Span.joinAll_cons, Span.lastStop_append]
      rfl
  | .denial sign _ inner => by
      rw [Phrase.tokens, List.map_cons, Span.joinAll_cons,
        ← Span.stop_joinAll inner.map_span_ne_nil, ← inner.span_tree vocabulary]
      rfl
  | .plain inner => inner.span_tree vocabulary
  | .run first later => by
      rw [Phrase.tree, Level.span_node, Phrase.tokens, List.map_append, Span.joinAll_cons,
        Span.joinAll_append first.map_span_ne_nil, first.span_tree vocabulary,
        later.lastStop_trees vocabulary]

/-- The trees of the later part of a run stop where its last token does. -/
theorem Later.lastStop_trees {level : Level} (vocabulary : Vocabulary) (stop : Nat) :
    (later : Later level) →
      Span.lastStop stop ((later.trees vocabulary).map Expr.span) =
        Span.lastStop stop (later.tokens.map Token.span)
  | .done => rfl
  | .more sign _ _ operand rest => by
      rw [Later.trees, Later.tokens, List.map_cons, List.map_cons, List.map_append,
        Span.lastStop_cons, Span.lastStop_cons, Span.lastStop_append,
        rest.lastStop_trees vocabulary, operand.span_tree vocabulary,
        Span.stop_joinAll operand.map_span_ne_nil]

end

/-! ## Operands one after another -/

/-- The spans of the tokens of each later operand. -/
def Later.segments {level : Level} : Later level → List (List Span)
  | .done => []
  | .more _ _ _ operand rest => operand.tokens.map Token.span :: rest.segments

theorem Later.map_span_trees {level : Level} (vocabulary : Vocabulary) :
    (later : Later level) →
      (later.trees vocabulary).map Expr.span = later.segments.map Span.joinAll
  | .done => rfl
  | .more _ _ _ operand rest => by
      rw [Later.trees, Later.segments, List.map_cons, List.map_cons,
        operand.span_tree vocabulary, rest.map_span_trees vocabulary]

theorem Later.ne_nil_of_mem_segments {level : Level} :
    (later : Later level) → ∀ segment ∈ later.segments, segment ≠ []
  | .done => by simp [Later.segments]
  | .more _ _ _ operand rest =>
      List.forall_mem_cons.mpr ⟨operand.map_span_ne_nil, rest.ne_nil_of_mem_segments⟩

/-- The tokens of later operands are tokens of the run, in the same order. -/
theorem Later.flatten_segments_sublist {level : Level} :
    (later : Later level) → later.segments.flatten.Sublist (later.tokens.map Token.span)
  | .done => .slnil
  | .more _ _ _ operand rest => by
      rw [Later.segments, Later.tokens, List.flatten_cons, List.map_cons, List.map_append]
      exact .cons _ ((List.Sublist.refl _).append rest.flatten_segments_sublist)

/-- The operands of a run are those of its only operand, or are all that it is made of. -/
theorem Level.operands_node
    (level : Level)
    (first : Expr)
    (later : List Expr)
    (operators : List level.Operator) :
    (level.node first later operators).operands =
      if later = [] then first.operands else first :: later := by
  cases later with
  | nil => cases level <;> rfl
  | cons second later => cases level <;> rfl

/-- Where the tokens of a phrase stand one after another, so do the operands of its tree. -/
theorem Phrase.ordered_operands {symbol : Nonterminal} (vocabulary : Vocabulary) :
    (phrase : Phrase symbol) →
      Span.Ordered (phrase.tokens.map Token.span) →
      Span.Ordered ((phrase.tree vocabulary).operands.map Expr.span)
  | .operand _ _, _ => .nil
  | .group _ _ _ _ _, _ => .nil
  | .denial _ _ _, _ => .nil
  | .plain inner, ordered => inner.ordered_operands vocabulary ordered
  | .run first later, ordered => by
      rw [Phrase.tokens, List.map_append] at ordered
      rw [Phrase.tree, Level.operands_node]
      split
      · exact first.ordered_operands vocabulary (ordered.sublist (List.sublist_append_left ..))
      · have within : ((first.tokens.map Token.span) :: later.segments).flatten.Sublist
            (first.tokens.map Token.span ++ later.tokens.map Token.span) :=
          (List.Sublist.refl _).append later.flatten_segments_sublist
        have apart := (ordered.sublist within).map_joinAll
          (List.forall_mem_cons.mpr ⟨first.map_span_ne_nil, later.ne_nil_of_mem_segments⟩)
        rwa [List.map_cons, first.span_tree vocabulary, later.map_span_trees vocabulary]

end Grammar
end DecisionRules
