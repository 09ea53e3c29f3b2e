import DecisionRules.Proofs.Grammar.Placement

/-!
# Nodes that stand alone

Every node of a rule's tree is the tree of a phrase within the rule.  The phrase is one of
disjunctions, as the looser symbols of the grammar take a single operand for what it is.  So the
text that a node was read from can be cut out and read on its own, as the same node at its new
place.
-/

namespace DecisionRules

/-- A span of a text covers at least one of its characters, and no character in part. -/
def Text.IsRange (text : List Char) (span : Span) : Prop :=
  ∃ before covered after,
    text = before ++ covered ++ after ∧
      covered ≠ [] ∧ span = ⟨byteWidth before, byteWidth before + byteWidth covered⟩

namespace Grammar

/-! ## Phrases of looser symbols -/

/-- A primary as a condition. -/
def Phrase.asCondition (phrase : Phrase .primary) : Phrase .condition :=
  .plain (.run (.run (.run phrase .done) .done) .done)

/-- A phrase as a phrase of disjunctions. -/
def Phrase.alone : {symbol : Nonterminal} → Phrase symbol → Phrase (.run .disjunction)
  | .primary, phrase => .run (.run phrase.asCondition .done) .done
  | .run .product, phrase => .run (.run (.plain (.run (.run phrase .done) .done)) .done) .done
  | .run .sum, phrase => .run (.run (.plain (.run phrase .done)) .done) .done
  | .run .comparison, phrase => .run (.run (.plain phrase) .done) .done
  | .condition, phrase => .run (.run phrase .done) .done
  | .run .conjunction, phrase => .run phrase .done
  | .run .disjunction, phrase => phrase

/-- A run of one operand has the places of the operand. -/
theorem Phrase.places_single (level : Level) (first : Phrase level.operand) (depth : Nat) :
    (Phrase.run first .done).places depth = first.places depth :=
  List.append_nil _

theorem Phrase.places_asCondition (phrase : Phrase .primary) (depth : Nat) :
    phrase.asCondition.places depth = phrase.places depth :=
  (places_single .comparison _ depth).trans
    ((places_single .sum _ depth).trans (places_single .product phrase depth))

theorem Phrase.places_alone {symbol : Nonterminal} (phrase : Phrase symbol) (depth : Nat) :
    phrase.alone.places depth = phrase.places depth := by
  have condition (phrase : Phrase .condition) :
      phrase.alone.places depth = phrase.places depth :=
    (places_single .disjunction _ depth).trans (places_single .conjunction phrase depth)
  have sum (phrase : Phrase (.run .sum)) : phrase.alone.places depth = phrase.places depth :=
    (condition _).trans (places_single .comparison phrase depth)
  match symbol, phrase with
  | .primary, phrase => exact (condition _).trans (phrase.places_asCondition depth)
  | .run .product, phrase => exact (sum _).trans (places_single .sum phrase depth)
  | .run .sum, phrase => exact sum phrase
  | .run .comparison, phrase => exact condition (.plain phrase)
  | .condition, phrase => exact condition phrase
  | .run .conjunction, phrase => exact places_single .disjunction phrase depth
  | .run .disjunction, phrase => rfl

theorem Phrase.tokens_alone {symbol : Nonterminal} (phrase : Phrase symbol) :
    phrase.alone.tokens = phrase.tokens := by
  rw [← phrase.alone.map_fst_places 0, phrase.places_alone, phrase.map_fst_places]

theorem Phrase.tree_alone
    {symbol : Nonterminal}
    (phrase : Phrase symbol)
    (vocabulary : Vocabulary) :
    phrase.alone.tree vocabulary = phrase.tree vocabulary := by
  cases symbol with
  | primary => rfl
  | condition => rfl
  | run level => cases level <;> rfl

/-! ## Phrases of nodes -/

/-- A node is the tree of a phrase of disjunctions that takes up neighbouring places of a list.
Places are compared and not only tokens, as what can be read depends on the depth as well. -/
def Lies (vocabulary : Vocabulary) (node : Expr) (places : List (Token × Nat)) : Prop :=
  ∃ (inner : Phrase (.run .disjunction)) (depth : Nat),
    inner.tree vocabulary = node ∧ inner.places depth <:+: places

section Lies

variable {vocabulary : Vocabulary} {node : Expr} {places wider : List (Token × Nat)}

theorem Lies.mono (lies : Lies vocabulary node places) (within : places <:+: wider) :
    Lies vocabulary node wider := by
  obtain ⟨inner, depth, stands, inside⟩ := lies
  exact ⟨inner, depth, stands, inside.trans within⟩

/-- The tree of a phrase lies where the phrase does. -/
theorem Phrase.lies_tree
    {symbol : Nonterminal}
    (phrase : Phrase symbol)
    (depth : Nat) :
    Lies vocabulary (phrase.tree vocabulary) (phrase.places depth) := by
  refine ⟨phrase.alone, depth, phrase.tree_alone vocabulary, [], [], ?_⟩
  rw [List.nil_append, List.append_nil, phrase.places_alone]

/-- A node of a run is the run itself or a node of an operand. -/
theorem Level.mem_nodes_node
    {level : Level}
    {first : Expr}
    {later : List Expr}
    {operators : List level.Operator}
    (member : node ∈ (level.node first later operators).nodes) :
    node = level.node first later operators ∨ ∃ operand ∈ first :: later, node ∈ operand.nodes := by
  cases later with
  | nil => exact .inr ⟨first, List.mem_cons_self, by cases level <;> exact member⟩
  | cons second later =>
      have either : node = level.node first (second :: later) operators ∨
          node ∈ (first :: second :: later).flatMap Expr.nodes := by
        cases level <;> simpa [Level.node, Expr.nodes] using member
      exact either.imp_right List.mem_flatMap.mp

mutual

/-- Each node of the tree of a phrase lies within the phrase. -/
theorem Phrase.lies_of_mem_nodes {symbol : Nonterminal} (depth : Nat) :
    (phrase : Phrase symbol) →
      node ∈ (phrase.tree vocabulary).nodes →
      Lies vocabulary node (phrase.places depth)
  | .operand token isOperand, member => by
      obtain rfl := List.mem_singleton.mp member
      exact (Phrase.operand token isOperand).lies_tree depth
  | .group opening opens inner closing closes, member => by
      obtain rfl | inside := List.mem_cons.mp member
      · exact (Phrase.group opening opens inner closing closes).lies_tree depth
      · exact (inner.lies_of_mem_nodes (depth + 1) inside).mono
          ⟨[(opening, depth)], [(closing, depth)], rfl⟩
  | .denial sign denies inner, member => by
      obtain rfl | inside := List.mem_cons.mp member
      · exact (Phrase.denial sign denies inner).lies_tree depth
      · exact (inner.lies_of_mem_nodes (depth + 1) inside).mono
          (List.suffix_cons (sign, depth) _).isInfix
  | .plain inner, member => inner.lies_of_mem_nodes depth member
  | .run first later, member => by
      obtain rfl | ⟨operand, memberOperand, inside⟩ := Level.mem_nodes_node member
      · exact (Phrase.run first later).lies_tree depth
      · obtain rfl | memberLater := List.mem_cons.mp memberOperand
        · exact (first.lies_of_mem_nodes depth inside).mono (List.prefix_append ..).isInfix
        · exact (later.lies_of_mem_nodes depth memberLater inside).mono
            (List.suffix_append ..).isInfix

theorem Later.lies_of_mem_nodes {level : Level} (depth : Nat) {operand : Expr} :
    (later : Later level) →
      operand ∈ later.trees vocabulary →
      node ∈ operand.nodes →
      Lies vocabulary node (later.places depth)
  | .done, memberLater, _ => by cases memberLater
  | .more sign _ _ next rest, memberLater, inside => by
      obtain rfl | memberRest := List.mem_cons.mp memberLater
      · exact (next.lies_of_mem_nodes depth inside).mono ⟨[(sign, depth)], rest.places depth, rfl⟩
      · exact (rest.lies_of_mem_nodes depth memberRest inside).mono
          (List.suffix_append ((sign, depth) :: next.places depth) _).isInfix

end

end Lies

end Grammar

namespace Expr

open Grammar

variable {vocabulary : Vocabulary} {maxDepth : Nat} {source : String} {tree node : Expr}

/-- A node of a rule is the tree of a phrase that can be read, of neighbouring tokens of the rule
text. -/
theorem exists_phrase_of_mem_nodes
    {tokens : Tokens}
    (scanned : Tokens.scan source = .ok tokens)
    (read : parse vocabulary maxDepth source = .ok tree)
    (member : node ∈ tree.nodes) :
    ∃ phrase : Phrase (.run .disjunction),
      phrase.tree vocabulary = node ∧
        Readable vocabulary maxDepth (phrase.places 0) ∧
        phrase.tokens <:+: tokens.body := by
  obtain ⟨whole, spelled, rfl, readable⟩ :=
    ofTokens_eq_ok_iff.mp ((parse_eq_ok_iff scanned).mp read)
  obtain ⟨phrase, depth, rfl, within⟩ := whole.lies_of_mem_nodes 0 member
  have readablePhrase : Readable vocabulary maxDepth (phrase.places depth) :=
    fun place memberPlace => readable place (within.subset memberPlace)
  refine ⟨phrase, rfl, readable_places_zero readablePhrase, ?_⟩
  rw [← spelled, ← phrase.map_fst_places depth, ← whole.map_fst_places 0]
  exact within.map Prod.fst

/-- A node of a rule is the tree of a phrase that can be read and that tiles a part of the rule
text. -/
theorem exists_tiles_of_mem_nodes
    (read : parse vocabulary maxDepth source = .ok tree)
    (member : node ∈ tree.nodes) :
    ∃ (phrase : Phrase (.run .disjunction)) (before covered after : List Char),
      phrase.tree vocabulary = node ∧
        Readable vocabulary maxDepth (phrase.places 0) ∧
        source.toList = before ++ covered ++ after ∧
        node.span =
          ⟨Text.byteWidth before, Text.byteWidth before + Text.byteWidth covered⟩ ∧
        Tiles (Text.byteWidth before) covered phrase.tokens := by
  obtain ⟨tokens, scanned⟩ := exists_scan_of_parse read
  obtain ⟨phrase, rfl, readable, earlier, later, spelled⟩ :=
    exists_phrase_of_mem_nodes scanned read member
  have tiles : Tiles 0 source.toList tokens.body := Tokens.tiles_of_scanAt scanned
  rw [← spelled] at tiles
  obtain ⟨before, covered, after, text, extent, tilesPhrase⟩ :=
    tiles.exists_infix phrase.tokens_ne_nil
  rw [← phrase.span_tree vocabulary, Nat.zero_add] at extent
  rw [Nat.zero_add] at tilesPhrase
  exact ⟨phrase, before, covered, after, rfl, readable, text, extent, tilesPhrase⟩

/-- The text of each node of a rule is read on its own as that node, moved to the start.  The
operands of a run stand one after another within the run. -/
theorem parse_slice_of_mem_nodes
    (read : parse vocabulary maxDepth source = .ok tree)
    (member : node ∈ tree.nodes) :
    Text.IsRange source.toList node.span ∧
      (∃ alone,
        parse vocabulary maxDepth (String.ofList (Text.slice source.toList node.span)) =
            .ok alone ∧
          alone.mapSpans (Span.shift node.span.start) = node) ∧
      Span.Ordered (node.operands.map span) ∧
      ∀ operand ∈ node.operands,
        node.span.start ≤ operand.span.start ∧ operand.span.stop ≤ node.span.stop := by
  obtain ⟨phrase, before, covered, after, rfl, readable, text, extent, tiles⟩ :=
    exists_tiles_of_mem_nodes read member
  have ordered := phrase.ordered_operands vocabulary tiles.ordered_spans
  have nonempty : covered ≠ [] := tiles.ne_nil phrase.tokens_ne_nil
  refine ⟨⟨before, covered, after, text, nonempty, extent⟩, ?_, ordered, ?_⟩
  · rw [extent, text, Text.slice_append]
    exact exists_parse_of_tiles tiles readable
  · intro operand memberOperand
    have run : (phrase.tree vocabulary).operands ≠ [] := List.ne_nil_of_mem memberOperand
    have memberSpan : operand.span ∈ (phrase.tree vocabulary).operands.map span :=
      List.mem_map_of_mem memberOperand
    rw [span_eq_joinAll_operands run]
    exact ⟨ordered.start_le _ memberSpan, ordered.stop_le _ memberSpan⟩

/-- The sum of `not (A < 1 + B) and C` is read on its own. -/
theorem parse_slice_of_mem_nodes_of_sum :
    ∃ tree node,
      parse .standard 2 "not (A < 1 + B) and C" = .ok tree ∧
        node ∈ tree.nodes ∧
        node.span = ⟨9, 14⟩ ∧
        ∃ alone,
          parse .standard 2
              (String.ofList (Text.slice "not (A < 1 + B) and C".toList node.span)) =
              .ok alone ∧
            alone.mapSpans (Span.shift node.span.start) = node := by
  have found :
      ((parse .standard 2 "not (A < 1 + B) and C").toOption.map fun tree =>
        tree.nodes.any fun node => node.span = ⟨9, 14⟩) = some true := by
    decide +kernel
  cases read : parse .standard 2 "not (A < 1 + B) and C" with
  | error error =>
      rw [read] at found
      cases found
  | ok tree =>
      rw [read] at found
      obtain ⟨node, member, extent⟩ := List.any_eq_true.mp (Option.some.inj found)
      exact ⟨tree, node, rfl, member, of_decide_eq_true extent,
        (parse_slice_of_mem_nodes read member).2.1⟩

end Expr
end DecisionRules
