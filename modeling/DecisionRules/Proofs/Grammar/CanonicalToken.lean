import DecisionRules.Proofs.Decimal.RoundTrip
import DecisionRules.Proofs.Grammar.Meaning
import DecisionRules.Proofs.Token.Lexing
import DecisionRules.Proofs.Token.Words

/-!
# Canonical spellings of tokens

The canonical spelling of an operator is its sign, and that of an operand is the text of what it
stands for.  It spells the token again, with one exception: a run of digits too large for a double
stands for infinity, and the text of infinity is a word.
-/

namespace DecisionRules

/-- Whether an operand is an infinite number. -/
def Operand.isInfinite : Operand → Bool
  | .literal (.number value) => value.isInf
  | _ => false

namespace Terminal

/-- The canonical sign of a terminal symbol that is no operand. -/
def sign : Terminal → List Char
  | .leftParen => ['(']
  | .rightParen => [')']
  | .star => ['*']
  | .slash => ['/']
  | .plus => ['+']
  | .minus => ['-']
  | .less => ['<']
  | .lessEqual => ['<', '=']
  | .greater => ['>']
  | .greaterEqual => ['>', '=']
  | .equal => ['=', '=']
  | .equalEqual => ['=', '=']
  | .bangEqual => ['!', '=']
  | .conjunction => ['a', 'n', 'd']
  | .disjunction => ['o', 'r']
  | .negation => ['n', 'o', 't']
  | .number => []
  | .truth => []
  | .falsehood => []
  | .identifier => []
  | .finish => []

/-- The sign of a terminal symbol spells it. -/
theorem ofLexeme?_sign
    {terminal : Terminal}
    (other : terminal.isOperand = false)
    (within : terminal ≠ .finish) :
    ofLexeme? terminal.sign = some terminal.sense := by
  cases terminal <;> first | decide | exact absurd rfl within | cases other

/-- An identifier is a word that is not reserved. -/
theorem word_of_ofLexeme?_identifier
    {lexeme : List Char}
    (spells : ofLexeme? lexeme = some .identifier) :
    IsWord lexeme ∧ ofKeyword? (String.ofList lexeme) = none := by
  obtain ⟨_, same⟩ | ⟨word, same⟩ | listed := ofLexeme?_cases spells
  · cases same
  · refine ⟨word, ?_⟩
    rw [ofKeyword?] at same ⊢
    cases found : keywords.find? fun keyword =>
        Text.sameLetters keyword.1 (String.ofList lexeme) with
    | none => rfl
    | some keyword =>
        rw [found] at same
        have reserved : keyword.2 ∈ keywords.map Prod.snd :=
          List.mem_map_of_mem (List.mem_of_find?_eq_some found)
        rw [show keyword.2 = .identifier from same.symm] at reserved
        exact absurd reserved (by decide)
  · exact absurd rfl (ne_of_mem_spellings listed).2.1

end Terminal

namespace Grammar

/-- The canonical spelling of a token. -/
def canonicalLexeme (vocabulary : Vocabulary) (token : Token) : List Char :=
  if token.terminal.isOperand then (denoted vocabulary token).text.toList
  else token.terminal.sign

/-- The canonical spelling of a token and the terminal symbol that it spells. -/
def canonical (vocabulary : Vocabulary) (token : Token) : Terminal × List Char :=
  (if (denoted vocabulary token).isInfinite then .identifier else token.terminal.sense,
    canonicalLexeme vocabulary token)

section Canonical

variable {vocabulary : Vocabulary} {token : Token}

/-- A run of digits stands for the number that it denotes. -/
theorem denoted_number
    (vocabulary : Vocabulary)
    (spells : Terminal.ofLexeme? token.lexeme.toList = some .number)
    (number : token.terminal = .number) :
    ∃ value,
      Decimal.read? token.lexeme.toList = some value ∧
        denoted vocabulary token = .literal (.number value) := by
  obtain ⟨nonempty, digits⟩ := Terminal.isDigits_of_ofLexeme? spells
  have read := Decimal.read?_digits nonempty digits
  refine ⟨_, read, ?_⟩
  rw [denoted, number]
  simp only [read, Option.getD_some]

/-- A name stands for the variable that the vocabulary resolves it to. -/
theorem denoted_identifier
    {name : String}
    (identifier : token.terminal = .identifier)
    (resolved : vocabulary.resolve? token.lexeme = some name) :
    denoted vocabulary token = .variable name := by
  rw [denoted, identifier]
  simp only [resolved, Option.getD_some]

/-- Only operands stand for an infinite number. -/
theorem isInfinite_eq_false_of_sign
    (vocabulary : Vocabulary)
    (other : token.terminal.isOperand = false) :
    (denoted vocabulary token).isInfinite = false := by
  unfold denoted
  cases terminal : token.terminal <;> first | rfl | (rw [terminal] at other; cases other)

/-- The canonical spelling of a token spells a terminal symbol, and a token with that symbol and
spelling means the same and is known, unless it should be an infinite number. -/
structure Restores (vocabulary : Vocabulary) (token : Token) : Prop where
  spells :
    Terminal.ofLexeme? (canonical vocabulary token).2 = some (canonical vocabulary token).1
  meaning_eq :
    (denoted vocabulary token).isInfinite = false →
      ∀ other : Token, other.spelling = canonical vocabulary token →
        meaning vocabulary other = meaning vocabulary token
  known :
    (denoted vocabulary token).isInfinite = false →
      ∀ other : Token, other.spelling = canonical vocabulary token →
        other.terminal = .identifier → (vocabulary.resolve? other.lexeme).isSome = true

/-- A token is restored from a canonical spelling when all tokens with the symbol and the lexeme
of this spelling mean the same and are known. -/
theorem Restores.of_canonical_eq
    {symbol : Terminal}
    {lexeme : List Char}
    (spelling : canonical vocabulary token = (symbol, lexeme))
    (spells : Terminal.ofLexeme? lexeme = some symbol)
    (meaning_eq : (denoted vocabulary token).isInfinite = false →
      ∀ other : Token, other.terminal = symbol → other.lexeme.toList = lexeme →
        meaning vocabulary other = meaning vocabulary token)
    (known : symbol = .identifier → (denoted vocabulary token).isInfinite = false →
      ∀ other : Token, other.lexeme.toList = lexeme →
        (vocabulary.resolve? other.lexeme).isSome = true) :
    Restores vocabulary token := by
  constructor
  · rw [spelling]
    exact spells
  · intro finite other same
    rw [spelling, Token.spelling, Prod.mk.injEq] at same
    exact meaning_eq finite other same.1 same.2
  · intro finite other same identifier
    rw [spelling, Token.spelling, Prod.mk.injEq] at same
    exact known (same.1.symm.trans identifier) finite other same.2

theorem meaning_eq_of_denoted_eq
    {other : Token}
    (symbols : other.terminal = token.terminal)
    (operands : denoted vocabulary other = denoted vocabulary token) :
    meaning vocabulary other = meaning vocabulary token := by
  rw [meaning, meaning, symbols, operands]

/-- A number is restored from its text. -/
theorem restores_number
    (spells : Terminal.ofLexeme? token.lexeme.toList = some .number)
    (number : token.terminal = .number) :
    Restores vocabulary token := by
  obtain ⟨value, read, stands⟩ := denoted_number vocabulary spells number
  obtain ⟨nonempty, digits⟩ := Terminal.isDigits_of_ofLexeme? spells
  have lexeme : canonicalLexeme vocabulary token = Decimal.text value := by
    rw [canonicalLexeme, number, stands]
    exact String.toList_ofList
  have infinite_eq : (denoted vocabulary token).isInfinite = value.isInf := by
    rw [stands, Operand.isInfinite]
  obtain ⟨infinite, word⟩ | ⟨finite, run⟩ := Decimal.text_of_digits nonempty digits read
  · rw [infinite] at infinite_eq
    -- The word for infinity is an identifier, and nothing is asked of it but that.
    have spelling : canonical vocabulary token = (.identifier, ['i', 'n', 'f']) := by
      rw [canonical, infinite_eq, lexeme, word]
      rfl
    refine .of_canonical_eq spelling (by decide) ?_ ?_
    · intro finite
      rw [infinite_eq] at finite
      cases finite
    · intro _ finite
      rw [infinite_eq] at finite
      cases finite
  · rw [finite] at infinite_eq
    have spelling : canonical vocabulary token = (.number, Decimal.text value) := by
      rw [canonical, infinite_eq, lexeme, number]
      rfl
    refine .of_canonical_eq spelling (Terminal.ofLexeme?_of_isDigits run) ?_ nofun
    intro _ other symbol same
    apply meaning_eq_of_denoted_eq (symbol.trans number.symm)
    rw [stands, denoted, symbol, same]
    have again := Decimal.read?_text_of_digits nonempty digits read
    simp only [again, Option.getD_some]

/-- A truth value is restored from its text. -/
theorem restores_truth
    (value : Bool)
    (truth : token.terminal = if value then .truth else .falsehood) :
    Restores vocabulary token := by
  have stands : denoted vocabulary token = .literal (.boolean value) := by
    rw [denoted, truth]
    cases value <;> rfl
  have spelling :
      canonical vocabulary token =
        (token.terminal, if value then ['t', 'r', 'u', 'e'] else ['f', 'a', 'l', 's', 'e']) := by
    rw [canonical, canonicalLexeme, stands, truth]
    cases value <;> rfl
  refine .of_canonical_eq spelling ?_ ?_ ?_
  · rw [truth]
    cases value <;> decide
  · intro _ other symbol _
    apply meaning_eq_of_denoted_eq symbol
    rw [stands, denoted, symbol, truth]
    cases value <;> rfl
  · intro identifier
    rw [truth] at identifier
    cases value <;> cases identifier

/-- A name is restored from the variable that it stands for. -/
theorem restores_identifier
    (spells : Terminal.ofLexeme? token.lexeme.toList = some .identifier)
    (identifier : token.terminal = .identifier)
    (known : (vocabulary.resolve? token.lexeme).isSome = true) :
    Restores vocabulary token := by
  obtain ⟨name, resolved⟩ := Option.isSome_iff_exists.mp known
  obtain ⟨same, again⟩ := Vocabulary.resolve?_spec resolved
  obtain ⟨word, free⟩ := Terminal.word_of_ofLexeme?_identifier spells
  rw [String.ofList_toList] at free
  have stands : denoted vocabulary token = .variable name :=
    denoted_identifier identifier resolved
  have spelling : canonical vocabulary token = (.identifier, name.toList) := by
    rw [canonical, canonicalLexeme, stands, identifier]
    rfl
  refine .of_canonical_eq spelling ?_ ?_ ?_
  · rw [Terminal.ofLexeme?_of_isWord (isWord_of_sameLetters same word), String.ofList_toList,
      ofKeyword?_congr same, free]
    rfl
  · intro _ other symbol restored
    rw [String.toList_inj] at restored
    apply meaning_eq_of_denoted_eq (symbol.trans identifier.symm)
    rw [stands]
    exact denoted_identifier symbol (by rw [restored, again])
  · intro _ _ other restored
    rw [String.toList_inj] at restored
    rw [restored, again]
    rfl

/-- An operator or a parenthesis is restored from its sign. -/
theorem restores_sign
    (other : token.terminal.isOperand = false)
    (within : token.terminal ≠ .finish) :
    Restores vocabulary token := by
  have finite := isInfinite_eq_false_of_sign vocabulary other
  have spelling :
      canonical vocabulary token = (token.terminal.sense, token.terminal.sign) := by
    rw [canonical, canonicalLexeme, finite, other]
    rfl
  have sense_sense (terminal : Terminal) : terminal.sense.sense = terminal.sense := by
    cases terminal <;> rfl
  have otherSense : token.terminal.sense.isOperand = false := by
    rw [Terminal.isOperand_congr (sense_sense token.terminal), other]
  refine .of_canonical_eq spelling (Terminal.ofLexeme?_sign other within) ?_ ?_
  · intro _ restored symbol _
    rw [meaning, meaning, symbol, sense_sense, otherSense, other]
    rfl
  · intro identifier
    rw [identifier] at otherSense
    cases otherSense

/-- Scanned tokens are restored from their canonical spellings. -/
theorem restores
    (spells : Terminal.ofLexeme? token.lexeme.toList = some token.terminal)
    (known : token.terminal = .identifier → (vocabulary.resolve? token.lexeme).isSome = true) :
    Restores vocabulary token := by
  have within := Terminal.ne_finish_of_ofLexeme? spells
  cases terminal : token.terminal with
  | number =>
      rw [terminal] at spells
      exact restores_number spells terminal
  | truth => exact restores_truth true terminal
  | falsehood => exact restores_truth false terminal
  | identifier =>
      rw [terminal] at spells
      exact restores_identifier spells terminal (known terminal)
  | _ => exact restores_sign (by rw [terminal]; rfl) within

end Canonical

end Grammar
end DecisionRules
