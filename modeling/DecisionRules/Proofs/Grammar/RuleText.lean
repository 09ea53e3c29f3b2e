import DecisionRules.Proofs.Decimal.Digits
import DecisionRules.Proofs.Grammar.Exactness
import DecisionRules.Proofs.Token.Tiling

/-!
# Rule texts and phrases

A rule text can be read exactly when its tokens are a phrase of disjunctions, all its names are
known and its nesting is within the limit; it is then read as the tree of that phrase, and there
is no other such phrase.
-/

namespace DecisionRules
namespace Grammar

/-- Of scanned tokens, the vocabulary knows all but the names that it does not resolve. -/
theorem known_iff
    (vocabulary : Vocabulary)
    {token : Token}
    (spells : Terminal.ofLexeme? token.lexeme.toList = some token.terminal) :
    Known vocabulary token ↔
      (token.terminal = .identifier → (vocabulary.resolve? token.lexeme).isSome = true) := by
  unfold Known Operand.ofToken denoted
  cases terminal : token.terminal with
  | number =>
      rw [terminal] at spells
      obtain ⟨nonempty, digits⟩ := Terminal.isDigits_of_ofLexeme? spells
      simp [Decimal.read?_digits nonempty digits]
  | identifier => cases vocabulary.resolve? token.lexeme <;> simp [Terminal.isOperand]
  | _ => simp [Terminal.isOperand]

/-- The places of a phrase can be read when its tokens are known and its nesting is within the
limit. -/
theorem readable_iff
    {vocabulary : Vocabulary}
    {symbol : Nonterminal}
    (phrase : Phrase symbol)
    (limit : Nat) :
    Readable vocabulary limit (phrase.places 0) ↔
      (∀ token ∈ phrase.tokens, Known vocabulary token) ∧
        ∀ place ∈ phrase.places 0, place.2 ≤ limit := by
  rw [← phrase.map_fst_places 0, List.forall_mem_map]
  exact ⟨fun readable =>
      ⟨fun place member => (readable place member).1,
        fun place member => (readable place member).2⟩,
    fun both place member => ⟨both.1 place member, both.2 place member⟩⟩

end Grammar

namespace Expr

open Grammar

variable {vocabulary : Vocabulary} {maxDepth : Nat}

theorem ofTokens_eq (vocabulary : Vocabulary) (maxDepth : Nat) (tokens : List Token) :
    ofTokens vocabulary maxDepth tokens =
      match (production vocabulary maxDepth (.run .disjunction)).result tokens with
      | .error obstacle => .error obstacle
      | .ok (tree, []) => .ok tree
      | .ok (_, found :: _) => .error (.trailingInput found) := by
  rw [ofTokens, nested_eq, entered, Production.result]
  cases production vocabulary maxDepth (.run .disjunction) tokens with
  | error obstacle => rfl
  | ok reading =>
      obtain ⟨tree, rest, shorter⟩ := reading
      cases rest <;> rfl

/-- Tokens are read as a rule exactly when they are a phrase that can be read. -/
theorem ofTokens_eq_ok_iff {tokens : List Token} {tree : Expr} :
    ofTokens vocabulary maxDepth tokens = .ok tree ↔
      ∃ phrase : Phrase (.run .disjunction),
        phrase.tokens = tokens ∧
        phrase.tree vocabulary = tree ∧
        Readable vocabulary maxDepth (phrase.places 0) := by
  rw [ofTokens_eq]
  constructor
  · intro read
    split at read
    next => cases read
    next made =>
      cases read
      obtain ⟨phrase, spelled, same, readable⟩ := sound maxDepth _ 0 _ _ _ made
      rw [List.append_nil] at spelled
      rw [Nat.zero_add] at readable
      exact ⟨phrase, spelled, same, readable⟩
    next => cases read
  · rintro ⟨phrase, rfl, rfl, readable⟩
    rw [← Nat.zero_add maxDepth] at readable
    have read := phrase.result_production readable (stops_nil _)
    rw [List.append_nil] at read
    rw [read]

/-- A rule text that has been scanned is read exactly when its tokens are. -/
theorem parse_eq_ok_iff
    {source : String}
    {tokens : Tokens}
    (scanned : Tokens.scan source = .ok tokens)
    {tree : Expr} :
    parse vocabulary maxDepth source = .ok tree ↔
      ofTokens vocabulary maxDepth tokens.body = .ok tree := by
  simp only [parse, scanned, parseTokens]
  cases ofTokens vocabulary maxDepth tokens.body <;> simp [Except.mapError]

/-- What was read has been scanned. -/
theorem exists_scan_of_parse
    {source : String}
    {tree : Expr}
    (read : parse vocabulary maxDepth source = .ok tree) :
    ∃ tokens, Tokens.scan source = .ok tokens := by
  cases scanned : Tokens.scan source with
  | error error =>
      rw [parse, scanned] at read
      cases read
  | ok tokens => exact ⟨tokens, rfl⟩

/-- The rule texts that can be read are those whose tokens are a phrase of disjunctions, with
names that the vocabulary resolves and nesting within the limit.  The phrase is unique, and the
rule is its tree. -/
theorem parse_ok_iff_phrase
    (vocabulary : Vocabulary)
    (maxDepth : Nat)
    (source : String)
    (tokens : Tokens)
    (scanned : Tokens.scan source = .ok tokens) :
    (∀ tree,
      parse vocabulary maxDepth source = .ok tree ↔
        ∃ phrase : Phrase (.run .disjunction),
          phrase.tokens = tokens.body ∧
          (∀ token ∈ tokens.body,
            token.terminal = .identifier → (vocabulary.resolve? token.lexeme).isSome = true) ∧
          (∀ place ∈ phrase.places 0, place.2 ≤ maxDepth) ∧
          phrase.tree vocabulary = tree) ∧
    ∀ left right : Phrase (.run .disjunction),
      left.tokens = tokens.body → right.tokens = tokens.body → left = right := by
  have known : (∀ token ∈ tokens.body, Known vocabulary token) ↔
      ∀ token ∈ tokens.body,
        token.terminal = .identifier → (vocabulary.resolve? token.lexeme).isSome = true :=
    forall₂_congr fun token member =>
      known_iff vocabulary (Tokens.ofLexeme?_of_mem_scan scanned member)
  constructor
  · intro tree
    rw [parse_eq_ok_iff scanned, ofTokens_eq_ok_iff, ← known]
    constructor
    · rintro ⟨phrase, spelled, same, readable⟩
      obtain ⟨knownTokens, within⟩ := (readable_iff phrase maxDepth).mp readable
      rw [spelled] at knownTokens
      exact ⟨phrase, spelled, knownTokens, within, same⟩
    · rintro ⟨phrase, spelled, knownTokens, within, same⟩
      rw [← spelled] at knownTokens
      exact ⟨phrase, spelled, same, (readable_iff phrase maxDepth).mpr ⟨knownTokens, within⟩⟩
  · intro left right spelled spelled'
    exact Phrase.tokens_injective (spelled.trans spelled'.symm)

/-- The rule `not (A + 1) * 2 >= C` is a phrase whose tokens lie in at most two levels. -/
theorem parse_ok_iff_phrase_of_denied_group :
    ∃ tokens,
      Tokens.scan "not (A + 1) * 2 >= C" = .ok tokens ∧
      ∃ phrase : Phrase (.run .disjunction),
        phrase.tokens = tokens.body ∧ ∀ place ∈ phrase.places 0, place.2 ≤ 2 := by
  have scans : ∃ tokens, Tokens.scan "not (A + 1) * 2 >= C" = .ok tokens :=
    exists_ok_of_isSome (by decide +kernel)
  have reads : ∃ tree, parse .standard 2 "not (A + 1) * 2 >= C" = .ok tree :=
    exists_ok_of_isSome (by decide +kernel)
  obtain ⟨tokens, scanned⟩ := scans
  obtain ⟨tree, read⟩ := reads
  obtain ⟨phrase, spelled, _, within, _⟩ :=
    ((parse_ok_iff_phrase .standard 2 _ tokens scanned).1 tree).mp read
  exact ⟨tokens, scanned, phrase, spelled, within⟩

end Expr
end DecisionRules
