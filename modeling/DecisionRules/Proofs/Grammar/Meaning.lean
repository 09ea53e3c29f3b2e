import DecisionRules.Proofs.Expr.Relocation
import DecisionRules.Proofs.Grammar.Extent

/-!
# The meaning of tokens

A token has its meaning from its terminal symbol, where both signs of equality are one, and from
the operand that it stands for.  Tokens with the same meanings make up the same phrases: the
phrases place them equally deep, and have the same tree but for its places.  Where the tokens also
agree on their places, up to a change of places on either side, so do the trees.
-/

namespace DecisionRules

/-- A terminal symbol, both signs of equality being one. -/
def Terminal.sense : Terminal → Terminal
  | .equal => .equalEqual
  | terminal => terminal

namespace Terminal

theorem sense_eq_iff (left right : Terminal) :
    left.sense = right.sense ↔
      left = right ∨ left = .equal ∧ right = .equalEqual ∨ left = .equalEqual ∧ right = .equal := by
  cases left <;> cases right <;> simp [sense]

/-- A symbol that has no other sign is known by its sense. -/
theorem eq_of_sense_eq
    {left right : Terminal}
    (same : left.sense = right.sense)
    (other : right ≠ .equal)
    (another : right ≠ .equalEqual) :
    left = right := by
  obtain same | ⟨_, signed⟩ | ⟨_, signed⟩ := (sense_eq_iff left right).mp same
  · exact same
  · exact absurd signed another
  · exact absurd signed other

theorem isOperand_congr {left right : Terminal} (same : left.sense = right.sense) :
    left.isOperand = right.isOperand := by
  obtain rfl | ⟨rfl, rfl⟩ | ⟨rfl, rfl⟩ := (sense_eq_iff left right).mp same <;> rfl

end Terminal

namespace Grammar

/-- What a token means in a phrase. -/
def meaning (vocabulary : Vocabulary) (token : Token) : Terminal × Option Operand :=
  (token.terminal.sense,
    if token.terminal.isOperand then some (denoted vocabulary token) else none)

/-- What a token means in a phrase, and its place after a change of places. -/
def meaningAt
    (vocabulary : Vocabulary)
    (change : Span → Span)
    (token : Token) :
    (Terminal × Option Operand) × Span :=
  (meaning vocabulary token, change token.span)

section Meaning

variable {vocabulary : Vocabulary} {left right : Token}

theorem sense_eq_of_meaning_eq (same : meaning vocabulary left = meaning vocabulary right) :
    left.terminal.sense = right.terminal.sense :=
  congrArg Prod.fst same

/-- A token with the meaning of a sign that has no other spelling is that sign. -/
theorem terminal_eq_of_meaning_eq
    {terminal : Terminal}
    (same : meaning vocabulary left = meaning vocabulary right)
    (stands : right.terminal = terminal)
    (sole : terminal ≠ .equal ∧ terminal ≠ .equalEqual) :
    left.terminal = terminal := by
  have sense := sense_eq_of_meaning_eq same
  rw [stands] at sense
  exact Terminal.eq_of_sense_eq sense sole.1 sole.2

/-- Tokens with one meaning stand for one operand, if for any. -/
theorem denoted_eq_of_meaning_eq
    (same : meaning vocabulary left = meaning vocabulary right)
    (isOperand : right.terminal.isOperand = true) :
    denoted vocabulary left = denoted vocabulary right := by
  have operands := congrArg Prod.snd same
  have isOperandLeft := Terminal.isOperand_congr (sense_eq_of_meaning_eq same)
  rw [meaning, meaning, isOperandLeft, isOperand] at operands
  exact Option.some.inj operands

/-- Tokens with one meaning are operators of the same levels, and are the same there. -/
theorem Level.mem_operators_congr
    {level : Level}
    {operator : level.Operator}
    (same : left.terminal.sense = right.terminal.sense)
    (spelled : (right.terminal, operator) ∈ level.operators) :
    (left.terminal, operator) ∈ level.operators := by
  obtain same | ⟨one, other⟩ | ⟨one, other⟩ := (Terminal.sense_eq_iff _ _).mp same
  · rwa [same]
  all_goals
    rw [other] at spelled
    rw [one]
    cases level <;> simp_all [Level.operators]

end Meaning

/-- The tree of a run whose places are changed. -/
theorem Level.mapSpans_node
    (level : Level)
    (change : Span → Span)
    (first : Expr)
    (later : List Expr)
    (operators : List level.Operator) :
    (level.node first later operators).mapSpans change =
      level.node (first.mapSpans change) (later.map (Expr.mapSpans change)) operators := by
  cases later with
  | nil => cases level <;> rfl
  | cons second later => cases level <;> simp [Level.node, Expr.mapSpans]

section Transfer

variable {vocabulary : Vocabulary} {left right : Span → Span}

mutual

/-- Tokens with the meanings of a phrase are a phrase of the same form. -/
theorem Phrase.exists_of_map_meaningAt_eq
    {symbol : Nonterminal}
    (respectsLeft : Span.Respects left)
    (respectsRight : Span.Respects right) :
    (phrase : Phrase symbol) →
      (tokens : List Token) →
      tokens.map (meaningAt vocabulary left) =
        phrase.tokens.map (meaningAt vocabulary right) →
      ∃ other : Phrase symbol,
        other.tokens = tokens ∧
          (∀ depth, (other.places depth).map Prod.snd = (phrase.places depth).map Prod.snd) ∧
          (other.tree vocabulary).mapSpans left = (phrase.tree vocabulary).mapSpans right
  | .operand token isOperand, tokens, same => by
      obtain ⟨other, rfl, one⟩ := List.map_eq_singleton_iff.mp same
      obtain ⟨meant, placed⟩ := Prod.mk.inj one
      have isOperandOther := Terminal.isOperand_congr (sense_eq_of_meaning_eq meant)
      refine ⟨.operand other (isOperandOther.trans isOperand), rfl, fun _ => rfl, ?_⟩
      rw [Phrase.tree, Phrase.tree, denoted_eq_of_meaning_eq meant isOperand]
      exact congrArg (Expr.leaf _) placed
  | .group opening opens inner closing closes, tokens, same => by
      obtain ⟨opening', later, rfl, one, sameLater⟩ := List.map_eq_cons_iff.mp same
      rw [List.map_append] at sameLater
      obtain ⟨tokens, ending, rfl, sameInner, sameEnding⟩ := List.map_eq_append_iff.mp sameLater
      obtain ⟨closing', rfl, two⟩ := List.map_eq_singleton_iff.mp sameEnding
      obtain ⟨inner', rfl, depths, trees⟩ :=
        inner.exists_of_map_meaningAt_eq respectsLeft respectsRight tokens sameInner
      obtain ⟨meantOpening, placedOpening⟩ := Prod.mk.inj one
      obtain ⟨meantClosing, placedClosing⟩ := Prod.mk.inj two
      have opens' := terminal_eq_of_meaning_eq meantOpening opens (by decide)
      have closes' := terminal_eq_of_meaning_eq meantClosing closes (by decide)
      refine ⟨.group opening' opens' inner' closing' closes', rfl, ?_, ?_⟩
      · intro depth
        simp [Phrase.places, depths]
      · rw [Phrase.tree, Phrase.tree, Expr.mapSpans, Expr.mapSpans, trees, respectsLeft,
          respectsRight, placedOpening, placedClosing]
  | .denial sign denies inner, tokens, same => by
      obtain ⟨sign', later, rfl, one, sameLater⟩ := List.map_eq_cons_iff.mp same
      obtain ⟨inner', rfl, depths, trees⟩ :=
        inner.exists_of_map_meaningAt_eq respectsLeft respectsRight later sameLater
      obtain ⟨meant, placed⟩ := Prod.mk.inj one
      have denies' := terminal_eq_of_meaning_eq meant denies (by decide)
      refine ⟨.denial sign' denies' inner', rfl, ?_, ?_⟩
      · intro depth
        simp [Phrase.places, depths]
      · -- The place of a denial extends to the end of the tree that it denies.
        have extents := congrArg Expr.span trees
        rw [(inner'.aligned_tree vocabulary).span_mapSpans respectsLeft,
          (inner.aligned_tree vocabulary).span_mapSpans respectsRight] at extents
        rw [Phrase.tree, Phrase.tree, Expr.mapSpans, Expr.mapSpans, trees, respectsLeft,
          respectsRight, placed, extents]
  | .plain inner, tokens, same => by
      obtain ⟨inner', spelled, depths, trees⟩ :=
        inner.exists_of_map_meaningAt_eq respectsLeft respectsRight tokens same
      exact ⟨.plain inner', spelled, depths, trees⟩
  | .run first later, tokens, same => by
      rw [Phrase.tokens, List.map_append] at same
      obtain ⟨tokens, others, rfl, sameFirst, sameLater⟩ := List.map_eq_append_iff.mp same
      obtain ⟨first', rfl, depthsFirst, treesFirst⟩ :=
        first.exists_of_map_meaningAt_eq respectsLeft respectsRight tokens sameFirst
      obtain ⟨later', rfl, depthsLater, treesLater, operators⟩ :=
        later.exists_of_map_meaningAt_eq respectsLeft respectsRight others sameLater
      refine ⟨.run first' later', rfl, ?_, ?_⟩
      · intro depth
        simp [Phrase.places, depthsFirst, depthsLater]
      · rw [Phrase.tree, Phrase.tree, Level.mapSpans_node, Level.mapSpans_node, treesFirst,
          treesLater, operators]

theorem Later.exists_of_map_meaningAt_eq
    {level : Level}
    (respectsLeft : Span.Respects left)
    (respectsRight : Span.Respects right) :
    (later : Later level) →
      (tokens : List Token) →
      tokens.map (meaningAt vocabulary left) =
        later.tokens.map (meaningAt vocabulary right) →
      ∃ other : Later level,
        other.tokens = tokens ∧
          (∀ depth, (other.places depth).map Prod.snd = (later.places depth).map Prod.snd) ∧
          (other.trees vocabulary).map (Expr.mapSpans left) =
            (later.trees vocabulary).map (Expr.mapSpans right) ∧
          other.operators = later.operators
  | .done, tokens, same => by
      obtain rfl := List.map_eq_nil_iff.mp same
      exact ⟨.done, rfl, fun _ => rfl, rfl, rfl⟩
  | .more sign operator spelled operand rest, tokens, same => by
      obtain ⟨sign', later, rfl, one, sameLater⟩ := List.map_eq_cons_iff.mp same
      rw [List.map_append] at sameLater
      obtain ⟨tokens, others, rfl, sameOperand, sameRest⟩ :=
        List.map_eq_append_iff.mp sameLater
      obtain ⟨operand', rfl, depthsOperand, treesOperand⟩ :=
        operand.exists_of_map_meaningAt_eq respectsLeft respectsRight tokens sameOperand
      obtain ⟨rest', rfl, depthsRest, treesRest, operators⟩ :=
        rest.exists_of_map_meaningAt_eq respectsLeft respectsRight others sameRest
      have meant := (Prod.mk.inj one).1
      have spelled' := Level.mem_operators_congr (sense_eq_of_meaning_eq meant) spelled
      refine ⟨.more sign' operator spelled' operand' rest', rfl, ?_, ?_, ?_⟩
      · intro depth
        simp [Later.places, depthsOperand, depthsRest]
      · simp [Later.trees, treesOperand, treesRest]
      · rw [Later.operators, Later.operators, operators]

end

end Transfer

/-- Tokens with the meanings of a phrase are a phrase with the same tree but for its places. -/
theorem Phrase.exists_of_map_meaning_eq
    {vocabulary : Vocabulary}
    {symbol : Nonterminal}
    (phrase : Phrase symbol)
    {tokens : List Token}
    (same : tokens.map (meaning vocabulary) = phrase.tokens.map (meaning vocabulary)) :
    ∃ other : Phrase symbol,
      other.tokens = tokens ∧
        (∀ depth, (other.places depth).map Prod.snd = (phrase.places depth).map Prod.snd) ∧
        (other.tree vocabulary).unplaced = (phrase.tree vocabulary).unplaced := by
  have placed (tokens : List Token) :
      tokens.map (meaningAt vocabulary fun _ => .origin) =
        (tokens.map (meaning vocabulary)).map (·, Span.origin) := by
    rw [List.map_map]
    rfl
  refine phrase.exists_of_map_meaningAt_eq Span.respects_origin Span.respects_origin tokens ?_
  rw [placed, same, placed]

/-! ## Leaves -/

/-- The leaves of a run are those of its operands. -/
theorem Level.leaves_node
    (level : Level)
    (first : Expr)
    (later : List Expr)
    (operators : List level.Operator) :
    (level.node first later operators).leaves = first.leaves ++ later.flatMap Expr.leaves := by
  cases later with
  | nil => cases level <;> exact (List.append_nil _).symm
  | cons second later => cases level <;> simp [Level.node, Expr.leaves]

/-- The tokens that are operands. -/
def operandTokens (tokens : List Token) : List Token :=
  tokens.filter fun token => token.terminal.isOperand

@[simp] theorem operandTokens_nil : operandTokens [] = [] := rfl

theorem operandTokens_cons_of_eq_false
    {token : Token}
    (tokens : List Token)
    (other : token.terminal.isOperand = false) :
    operandTokens (token :: tokens) = operandTokens tokens :=
  List.filter_cons_of_neg (by simp [other])

theorem operandTokens_cons_of_eq_true
    {token : Token}
    (tokens : List Token)
    (isOperand : token.terminal.isOperand = true) :
    operandTokens (token :: tokens) = token :: operandTokens tokens :=
  List.filter_cons_of_pos (by simp [isOperand])

theorem operandTokens_append (left right : List Token) :
    operandTokens (left ++ right) = operandTokens left ++ operandTokens right :=
  List.filter_append ..

mutual

/-- The leaves of a phrase are what its operands stand for. -/
theorem Phrase.leaves_tree {symbol : Nonterminal} (vocabulary : Vocabulary) :
    (phrase : Phrase symbol) →
      (phrase.tree vocabulary).leaves =
        (operandTokens phrase.tokens).map (denoted vocabulary)
  | .operand token isOperand => by
      rw [Phrase.tokens, operandTokens_cons_of_eq_true _ isOperand]
      rfl
  | .group opening opens inner closing closes => by
      rw [Phrase.tokens, operandTokens_cons_of_eq_false _ (by rw [opens]; rfl),
        operandTokens_append, operandTokens_cons_of_eq_false _ (by rw [closes]; rfl),
        operandTokens_nil, List.append_nil]
      exact inner.leaves_tree vocabulary
  | .denial sign denies inner => by
      rw [Phrase.tokens, operandTokens_cons_of_eq_false _ (by rw [denies]; rfl)]
      exact inner.leaves_tree vocabulary
  | .plain inner => inner.leaves_tree vocabulary
  | .run first later => by
      rw [Phrase.tree, Level.leaves_node, Phrase.tokens, operandTokens_append, List.map_append,
        first.leaves_tree vocabulary, later.leaves_trees vocabulary]

theorem Later.leaves_trees {level : Level} (vocabulary : Vocabulary) :
    (later : Later level) →
      (later.trees vocabulary).flatMap Expr.leaves =
        (operandTokens later.tokens).map (denoted vocabulary)
  | .done => rfl
  | .more sign operator spelled operand rest => by
      rw [Later.trees, List.flatMap_cons, Later.tokens,
        operandTokens_cons_of_eq_false _ (Level.isOperand_eq_false spelled),
        operandTokens_append, List.map_append, operand.leaves_tree vocabulary,
        rest.leaves_trees vocabulary]

end

end Grammar
end DecisionRules
