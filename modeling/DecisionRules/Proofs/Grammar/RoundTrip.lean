import DecisionRules.Proofs.Grammar.CanonicalText
import DecisionRules.Proofs.Grammar.RuleText

/-!
# Canonical texts are read back

The canonical text of a rule that was read is scanned into the canonical spellings of the rule's
tokens.  When no number of the rule is infinite these mean the same as the tokens themselves, so
that the text is read as the same tree up to its places.  An infinite number comes back as a name,
and no tree with a name in its place is the same.
-/

namespace DecisionRules
namespace Grammar

section Spellings

variable {vocabulary : Vocabulary} {token other : Token}

/-- A token with the canonical spelling of another is an operand if the other one is. -/
theorem isOperand_eq_of_spelling_eq (same : other.spelling = canonical vocabulary token) :
    other.terminal.isOperand = token.terminal.isOperand := by
  have symbol : other.terminal = (canonical vocabulary token).1 := congrArg Prod.fst same
  rw [symbol, canonical]
  cases infinite : (denoted vocabulary token).isInfinite with
  | false =>
      apply Terminal.isOperand_congr
      cases token.terminal <;> rfl
  | true =>
      cases operand : token.terminal.isOperand with
      | false =>
          rw [isInfinite_eq_false_of_sign vocabulary operand] at infinite
          cases infinite
      | true => rfl

/-- A token with the canonical spelling of an infinite number does not stand for it. -/
theorem denoted_ne_of_isInfinite
    (same : other.spelling = canonical vocabulary token)
    (infinite : (denoted vocabulary token).isInfinite = true) :
    denoted vocabulary other ≠ denoted vocabulary token := by
  have symbol : other.terminal = (canonical vocabulary token).1 := congrArg Prod.fst same
  rw [canonical, infinite] at symbol
  intro stands
  rw [← stands, denoted, symbol] at infinite
  cases infinite

end Spellings

section Lists

variable {vocabulary : Vocabulary} {tokens others : List Token}

/-- Canonical spellings of finite tokens mean the same as the tokens. -/
theorem map_meaning_eq
    (spellings : others.map Token.spelling = tokens.map (canonical vocabulary))
    (restored : ∀ token ∈ tokens, Restores vocabulary token)
    (finite : ∀ token ∈ tokens, (denoted vocabulary token).isInfinite = false) :
    others.map (meaning vocabulary) = tokens.map (meaning vocabulary) := by
  induction tokens generalizing others with
  | nil =>
      obtain rfl := List.map_eq_nil_iff.mp spellings
      rfl
  | cons token tokens inductionHypothesis =>
      obtain ⟨other, others, rfl, one, rest⟩ := List.map_eq_cons_iff.mp spellings
      rw [List.forall_mem_cons] at restored finite
      rw [List.map_cons, List.map_cons, restored.1.meaning_eq finite.1 other one,
        inductionHypothesis rest restored.2 finite.2]

/-- Canonical spellings of finite tokens are known. -/
theorem known_of_map_spelling_eq
    (spellings : others.map Token.spelling = tokens.map (canonical vocabulary))
    (restored : ∀ token ∈ tokens, Restores vocabulary token)
    (finite : ∀ token ∈ tokens, (denoted vocabulary token).isInfinite = false) :
    ∀ other ∈ others,
      other.terminal = .identifier → (vocabulary.resolve? other.lexeme).isSome = true := by
  intro other member
  have spelled : other.spelling ∈ tokens.map (canonical vocabulary) :=
    spellings ▸ List.mem_map_of_mem member
  obtain ⟨token, tokenMember, same⟩ := List.mem_map.mp spelled
  exact (restored token tokenMember).known (finite token tokenMember) other same.symm

/-- Tokens with canonical spellings that stand for the same operands have no infinite number among
them. -/
theorem isInfinite_eq_false_of_map_denoted_eq
    (spellings : others.map Token.spelling = tokens.map (canonical vocabulary))
    (stand : (operandTokens others).map (denoted vocabulary) =
      (operandTokens tokens).map (denoted vocabulary)) :
    ∀ token ∈ operandTokens tokens, (denoted vocabulary token).isInfinite = false := by
  induction tokens generalizing others with
  | nil => simp
  | cons token tokens inductionHypothesis =>
      obtain ⟨other, others, rfl, one, rest⟩ := List.map_eq_cons_iff.mp spellings
      have isOperand := isOperand_eq_of_spelling_eq one
      cases operand : token.terminal.isOperand with
      | false =>
          rw [operand] at isOperand
          rw [operandTokens_cons_of_eq_false _ isOperand,
            operandTokens_cons_of_eq_false _ operand] at stand
          rw [operandTokens_cons_of_eq_false _ operand]
          exact inductionHypothesis rest stand
      | true =>
          rw [operand] at isOperand
          rw [operandTokens_cons_of_eq_true _ isOperand,
            operandTokens_cons_of_eq_true _ operand, List.map_cons, List.map_cons,
            List.cons_eq_cons] at stand
          rw [operandTokens_cons_of_eq_true _ operand, List.forall_mem_cons]
          refine ⟨?_, inductionHypothesis rest stand.2⟩
          rw [Bool.eq_false_iff]
          intro infinite
          exact denoted_ne_of_isInfinite one infinite stand.1

end Lists

end Grammar

namespace Expr

open Grammar

/-- The canonical text of a phrase is scanned into the canonical spellings of its tokens. -/
theorem exists_scan_text
    {vocabulary : Vocabulary}
    (phrase : Phrase (.run .disjunction))
    (restored : ∀ token ∈ phrase.tokens, Restores vocabulary token) :
    ∃ tokens,
      Tokens.scan (phrase.tree vocabulary).text = .ok tokens ∧
        tokens.body.map Token.spelling = phrase.tokens.map (canonical vocabulary) := by
  have lexes := phrase.lexes restored .finish detached_nil
  rw [List.append_nil, List.append_nil, ← phrase.toList_text_tree vocabulary] at lexes
  exact Tokens.exists_scan_of_lexes lexes

/-- The tokens of a rule that was read are restored from their canonical spellings. -/
theorem restores_of_readable
    {vocabulary : Vocabulary}
    {maxDepth : Nat}
    {source : String}
    {tokens : Tokens}
    (scanned : Tokens.scan source = .ok tokens)
    {phrase : Phrase (.run .disjunction)}
    (spelled : phrase.tokens = tokens.body)
    (readable : Readable vocabulary maxDepth (phrase.places 0)) :
    ∀ token ∈ phrase.tokens, Restores vocabulary token := by
  intro token member
  have known := ((readable_iff phrase maxDepth).mp readable).1 token member
  rw [spelled] at member
  have spells := Tokens.ofLexeme?_of_mem_scan scanned member
  exact restores spells ((known_iff vocabulary spells).mp known)

/-- Tokens with the meanings of a rule are read as the same tree up to its places. -/
theorem exists_parse_of_map_meaning_eq
    {vocabulary : Vocabulary}
    {maxDepth : Nat}
    {source : String}
    {tokens : Tokens}
    (scanned : Tokens.scan source = .ok tokens)
    {phrase : Phrase (.run .disjunction)}
    (readable : Readable vocabulary maxDepth (phrase.places 0))
    (meanings :
      tokens.body.map (meaning vocabulary) = phrase.tokens.map (meaning vocabulary))
    (known : ∀ token ∈ tokens.body,
      token.terminal = .identifier → (vocabulary.resolve? token.lexeme).isSome = true) :
    ∃ tree,
      parse vocabulary maxDepth source = .ok tree ∧
        tree.unplaced = (phrase.tree vocabulary).unplaced := by
  obtain ⟨other, spelled, depths, trees⟩ :=
    phrase.exists_of_map_meaning_eq meanings
  refine ⟨other.tree vocabulary, ?_, trees⟩
  rw [parse_eq_ok_iff scanned, ofTokens_eq_ok_iff]
  refine ⟨other, spelled, rfl, (readable_iff other maxDepth).mpr ⟨?_, ?_⟩⟩
  · intro token member
    rw [spelled] at member
    exact (known_iff vocabulary (Tokens.ofLexeme?_of_mem_scan scanned member)).mpr
      (known token member)
  · have within := ((readable_iff phrase maxDepth).mp readable).2
    rw [← List.forall_mem_map (f := Prod.snd) (P := (· ≤ maxDepth))] at within ⊢
    rwa [depths 0]

/-- The canonical text of a rule that was read is read as the same tree up to its places, exactly
when no number of the rule is infinite. -/
theorem parse_text_iff
    {vocabulary : Vocabulary}
    {maxDepth : Nat}
    {source : String}
    {tree : Expr}
    (read : parse vocabulary maxDepth source = .ok tree) :
    (∃ again,
      parse vocabulary maxDepth tree.text = .ok again ∧ again.unplaced = tree.unplaced) ↔
      ∀ operand ∈ tree.leaves, operand.isInfinite = false := by
  obtain ⟨tokens, scanned⟩ := exists_scan_of_parse read
  obtain ⟨phrase, spelled, rfl, readable⟩ :=
    ofTokens_eq_ok_iff.mp ((parse_eq_ok_iff scanned).mp read)
  have restored := restores_of_readable scanned spelled readable
  obtain ⟨others, scannedText, spellings⟩ := exists_scan_text phrase restored
  rw [phrase.leaves_tree vocabulary, List.forall_mem_map]
  constructor
  · rintro ⟨again, readAgain, same⟩
    obtain ⟨other, spelledOther, rfl, _⟩ :=
      ofTokens_eq_ok_iff.mp ((parse_eq_ok_iff scannedText).mp readAgain)
    have stand := leaves_eq_of_unplaced_eq same
    rw [other.leaves_tree vocabulary, phrase.leaves_tree vocabulary, spelledOther] at stand
    exact isInfinite_eq_false_of_map_denoted_eq spellings stand
  · intro finiteOperands
    have finite : ∀ token ∈ phrase.tokens, (denoted vocabulary token).isInfinite = false := by
      intro token member
      cases operand : token.terminal.isOperand with
      | false => exact isInfinite_eq_false_of_sign vocabulary operand
      | true => exact finiteOperands token (List.mem_filter.mpr ⟨member, operand⟩)
    exact exists_parse_of_map_meaning_eq scannedText readable
      (map_meaning_eq spellings restored finite)
      (known_of_map_spelling_eq spellings restored finite)

/-- The rule `!(Days = 007)` is read back from its canonical text. -/
theorem parse_text_iff_of_denial :
    ∃ tree,
      parse .standard 2 "!(Days = 007)" = .ok tree ∧
        ∃ again, parse .standard 2 tree.text = .ok again ∧ again.unplaced = tree.unplaced := by
  have finite :
      ((parse .standard 2 "!(Days = 007)").toOption.map fun tree =>
        tree.leaves.all fun operand => !operand.isInfinite) = some true := by
    decide +kernel
  cases read : parse .standard 2 "!(Days = 007)" with
  | error error =>
      rw [read] at finite
      cases finite
  | ok tree =>
      rw [read] at finite
      have leaves := List.all_eq_true.mp (Option.some.inj finite)
      refine ⟨tree, rfl, (parse_text_iff read).mpr ?_⟩
      intro operand member
      simpa using leaves operand member

end Expr
end DecisionRules
