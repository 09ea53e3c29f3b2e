import DecisionRules.Proofs.Grammar.Meaning
import DecisionRules.Proofs.Grammar.RuleText
import DecisionRules.Proofs.Token.Lexing
import Mathlib.Data.List.Forall2

/-!
# Tokens that mean the same

Two tokens are synonymous when they have the same symbol, both signs of equality being one, and
stand for the same number or the same variable where they are numbers or names.  How else they are
spelled makes no difference: what synonymous tokens can be read as is the same operand, and tokens
that are synonymous with those of a phrase are a phrase of the same form.
-/

namespace DecisionRules

open Grammar

/-- Two tokens mean the same in every rule. -/
structure Synonymous (vocabulary : Vocabulary) (left right : Token) : Prop where
  /-- They have the same symbol, both signs of equality being one. -/
  sense : left.terminal.sense = right.terminal.sense
  /-- Numbers have the same value. -/
  number :
    left.terminal = .number →
      Decimal.read? left.lexeme.toList = Decimal.read? right.lexeme.toList
  /-- Names stand for the same variable, or for none. -/
  name :
    left.terminal = .identifier →
      vocabulary.resolve? left.lexeme = vocabulary.resolve? right.lexeme

instance (vocabulary : Vocabulary) (left right : Token) :
    Decidable (Synonymous vocabulary left right) :=
  decidable_of_iff
    (left.terminal.sense = right.terminal.sense ∧
      (left.terminal = .number →
        Decimal.read? left.lexeme.toList = Decimal.read? right.lexeme.toList) ∧
      (left.terminal = .identifier →
        vocabulary.resolve? left.lexeme = vocabulary.resolve? right.lexeme))
    ⟨fun ⟨sense, number, name⟩ => ⟨sense, number, name⟩,
      fun same => ⟨same.sense, same.number, same.name⟩⟩

namespace Synonymous

variable {vocabulary : Vocabulary} {left right : Token}

/-- Tokens with one spelling are synonymous. -/
theorem of_spelling (same : left.spelling = right.spelling) : Synonymous vocabulary left right := by
  obtain ⟨terminal, characters⟩ := Prod.mk.inj same
  have lexeme : left.lexeme = right.lexeme := String.toList_inj.mp characters
  exact ⟨congrArg Terminal.sense terminal, fun _ => congrArg Decimal.read? characters,
    fun _ => congrArg vocabulary.resolve? lexeme⟩

/-- Operators with one meaning are synonymous. -/
theorem of_sense
    (sense : left.terminal.sense = right.terminal.sense)
    (noOperand : left.terminal.isOperand = false) :
    Synonymous vocabulary left right := by
  refine ⟨sense, fun number => ?_, fun name => ?_⟩
  · rw [number] at noOperand
    cases noOperand
  · rw [name] at noOperand
    cases noOperand

variable (same : Synonymous vocabulary left right)

include same

/-- Synonymous tokens are read as the same operand, or fail for the same reason, each with an error
about itself. -/
theorem ofToken_cases :
    (∃ operand,
      Operand.ofToken vocabulary left = .ok operand ∧
        Operand.ofToken vocabulary right = .ok operand) ∨
    (∃ fault,
      Operand.ofToken vocabulary left =
          .error (.malformed fault left.lexeme left.span left.position) ∧
        Operand.ofToken vocabulary right =
          .error (.malformed fault right.lexeme right.span right.position)) ∨
    (Operand.ofToken vocabulary left = .error (.unknownVariable left.lexeme left.span) ∧
      Operand.ofToken vocabulary right = .error (.unknownVariable right.lexeme right.span)) := by
  have number := same.number
  have name := same.name
  rw [Operand.ofToken, Operand.ofToken]
  obtain terminal | ⟨one, other⟩ | ⟨one, other⟩ := (Terminal.sense_eq_iff _ _).mp same.sense
  · rw [terminal] at number name ⊢
    cases sort : right.terminal with
    | number =>
        rw [number sort]
        cases Decimal.read? right.lexeme.toList with
        | some value => exact .inl ⟨_, rfl, rfl⟩
        | none => exact .inr (.inl ⟨_, rfl, rfl⟩)
    | identifier =>
        rw [name sort]
        cases vocabulary.resolve? right.lexeme with
        | some name => exact .inl ⟨_, rfl, rfl⟩
        | none => exact .inr (.inr ⟨rfl, rfl⟩)
    | truth => exact .inl ⟨_, rfl, rfl⟩
    | falsehood => exact .inl ⟨_, rfl, rfl⟩
    | _ => exact .inr (.inl ⟨_, rfl, rfl⟩)
  · rw [one, other]
    exact .inr (.inl ⟨_, rfl, rfl⟩)
  · rw [one, other]
    exact .inr (.inl ⟨_, rfl, rfl⟩)

/-- What synonymous tokens can be read as is the same operand. -/
theorem toOption_ofToken :
    (Operand.ofToken vocabulary left).toOption = (Operand.ofToken vocabulary right).toOption := by
  obtain ⟨_, one, other⟩ | ⟨_, one, other⟩ | ⟨one, other⟩ := same.ofToken_cases <;>
    rw [one, other] <;> rfl

/-- A token that is synonymous with a known one is known and has its meaning. -/
theorem known_of_known (known : Known vocabulary right) :
    Known vocabulary left ∧ meaning vocabulary left = meaning vocabulary right := by
  rw [meaning, meaning, Known, same.sense, Terminal.isOperand_congr same.sense]
  by_cases isOperand : right.terminal.isOperand = true
  · have read := known isOperand
    obtain ⟨_, one, other⟩ | ⟨_, _, other⟩ | ⟨_, other⟩ := same.ofToken_cases <;>
      rw [read] at other <;> cases other
    rw [if_pos isOperand, if_pos isOperand, ← eq_denoted_of_ofToken one]
    exact ⟨fun _ => one, rfl⟩
  · rw [if_neg isOperand, if_neg isOperand]
    exact ⟨fun holds => absurd holds isOperand, rfl⟩

end Synonymous

/-! ## Phrases -/

namespace Grammar

/-- Lists that agree in some form agree in it at each place. -/
theorem forall₂_of_map_eq
    {form otherForm : Token → α}
    {tokens others : List Token}
    (same : tokens.map form = others.map otherForm) :
    tokens.Forall₂ (fun token other => form token = otherForm other) others := by
  rw [← List.forall₂_eq_eq_eq, List.forall₂_map_left_iff, List.forall₂_map_right_iff] at same
  exact same

variable {vocabulary : Vocabulary} {left right : Span → Span}

/-- Tokens that are synonymous with known ones are known and have the same meanings, also at their
places where the places are the same up to a change on either side. -/
theorem map_meaningAt_of_synonymous
    {tokens others : List Token}
    (pairs : others.Forall₂
      (fun other token => Synonymous vocabulary other token ∧ left other.span = right token.span)
      tokens)
    (known : ∀ token ∈ tokens, Known vocabulary token) :
    (∀ other ∈ others, Known vocabulary other) ∧
      others.map (meaningAt vocabulary left) = tokens.map (meaningAt vocabulary right) := by
  induction pairs with
  | nil => exact ⟨known, rfl⟩
  | cons head _ inductionHypothesis =>
      obtain ⟨synonymous, placed⟩ := head
      obtain ⟨knownHead, knownTail⟩ := List.forall_mem_cons.mp known
      obtain ⟨knownOther, meant⟩ := synonymous.known_of_known knownHead
      obtain ⟨knownOthers, same⟩ := inductionHypothesis knownTail
      refine ⟨List.forall_mem_cons.mpr ⟨knownOther, knownOthers⟩, ?_⟩
      rw [List.map_cons, List.map_cons, same, meaningAt, meaningAt, meant, placed]

/-- Tokens that are synonymous with those of a phrase are a phrase with the same tree, up to a
change of places on either side, which can be read where the phrase can. -/
theorem Phrase.exists_of_synonymous
    {symbol : Nonterminal}
    {phrase : Phrase symbol}
    (respectsLeft : Span.Respects left)
    (respectsRight : Span.Respects right)
    {limit : Nat}
    (readable : Readable vocabulary limit (phrase.places 0))
    {tokens : List Token}
    (pairs : tokens.Forall₂
      (fun token other => Synonymous vocabulary token other ∧ left token.span = right other.span)
      phrase.tokens) :
    ∃ other : Phrase symbol,
      other.tokens = tokens ∧
        (other.tree vocabulary).mapSpans left = (phrase.tree vocabulary).mapSpans right ∧
        Readable vocabulary limit (other.places 0) := by
  obtain ⟨known, within⟩ := (readable_iff phrase limit).mp readable
  obtain ⟨knownTokens, same⟩ := map_meaningAt_of_synonymous pairs known
  obtain ⟨other, rfl, depths, trees⟩ :=
    phrase.exists_of_map_meaningAt_eq respectsLeft respectsRight tokens same
  refine ⟨other, rfl, trees, (readable_iff other limit).mpr ⟨knownTokens, ?_⟩⟩
  rw [← List.forall_mem_map (f := Prod.snd) (P := (· ≤ limit))] at within ⊢
  rwa [depths 0]

end Grammar
end DecisionRules
