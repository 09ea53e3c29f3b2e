import DecisionRules.Proofs.Token.Tiling

/-!
# The alphabet of rule texts

A rule text is written with separators, the characters of words, and the characters of parentheses
and operators.  Every lexeme consists of such characters, and every one of them that is no separator
begins a lexeme.  So a text cannot be scanned when it has another character, and scanning goes as
far as the first one.
-/

namespace DecisionRules

/-- The characters of parentheses and operators. -/
def Terminal.signs : List Char :=
  ['(', ')', '*', '/', '+', '-', '!', '=', '<', '>', '&', '|']

/-- The characters that rule texts are written with. -/
def InAlphabet (char : Char) : Prop :=
  isSeparator char = true ∨ Terminal.continuesWord char = true ∨ char ∈ Terminal.signs

instance (char : Char) : Decidable (InAlphabet char) := by
  unfold InAlphabet
  infer_instance

/-- The alphabet consists of the letters and digits of ASCII, the underscore, the characters of
parentheses and operators, and the separators. -/
theorem inAlphabet_iff (char : Char) :
    InAlphabet char ↔
      char.isAlpha = true ∨ char.isDigit = true ∨
        char ∈
          ['_', '(', ')', '*', '/', '+', '-', '!', '=', '<', '>', '&', '|', ' ', '\t', '\r',
            '\n'] := by
  simp only [InAlphabet, isSeparator, Terminal.continuesWord, Terminal.signs, Char.isAlphanum,
    Bool.or_eq_true, beq_iff_eq, List.mem_cons, List.not_mem_nil, or_false]
  grind

/-- A lexeme is written with the alphabet. -/
theorem inAlphabet_of_mem_lexeme
    {lexeme : List Char}
    {terminal : Terminal}
    (spells : Terminal.ofLexeme? lexeme = some terminal) :
    ∀ char ∈ lexeme, InAlphabet char := by
  intro char member
  obtain ⟨digits, _⟩ | ⟨⟨first, rest, rfl, begins, continues⟩, _⟩ | listed :=
    Terminal.ofLexeme?_cases spells
  · exact .inr (.inl ((Terminal.continuesWord_iff char).mpr (.inr (digits.2 char member))))
  · obtain rfl | later := List.mem_cons.mp member
    · exact .inr (.inl ((Terminal.continuesWord_iff char).mpr (.inl begins)))
    · exact .inr (.inl (continues char later))
  · have all : (Terminal.spellings.all fun spelling =>
        spelling.1.all fun char => decide (char ∈ Terminal.signs)) = true := by
      decide
    have spelled := List.all_eq_true.mp (List.all_eq_true.mp all _ listed) char member
    exact .inr (.inr (of_decide_eq_true spelled))

/-- A text that is tiled is written with the alphabet. -/
theorem Tiles.inAlphabet
    {offset : Nat}
    {text : List Char}
    {tokens : List Token}
    (tiles : Tiles offset text tokens) :
    ∀ char ∈ text, InAlphabet char := by
  induction tiles with
  | finish => simp
  | separator separates _ inductionHypothesis =>
      exact List.forall_mem_cons.mpr ⟨.inl separates, inductionHypothesis⟩
  | token _ _ spells _ _ inductionHypothesis =>
      exact List.forall_mem_append.mpr ⟨inAlphabet_of_mem_lexeme spells, inductionHypothesis⟩

/-- A sign spells a symbol, alone and together with the second character that it can have. -/
theorem exists_ofLexeme?_of_mem_signs
    {sign : Char}
    (listed : sign ∈ Terminal.signs)
    (rest : List Char) :
    ∃ terminal, Terminal.ofLexeme? (sign :: lexemeTail sign rest) = some terminal := by
  have all : (Terminal.signs.all fun sign =>
      !sign.isDigit && !Terminal.beginsWord sign && (Terminal.ofLexeme? [sign]).isSome &&
        (secondOf? sign).all fun second => (Terminal.ofLexeme? [sign, second]).isSome) = true := by
    decide
  have checked := List.all_eq_true.mp all sign listed
  simp only [Bool.and_eq_true, Bool.not_eq_true'] at checked
  obtain ⟨⟨⟨noDigit, noWord⟩, alone⟩, double⟩ := checked
  rw [lexemeTail, if_neg (Bool.eq_false_iff.mp noDigit), if_neg (Bool.eq_false_iff.mp noWord)]
  split
  next taken =>
    rw [Bool.and_eq_true, Option.isSome_iff_exists, beq_iff_eq] at taken
    obtain ⟨⟨second, known⟩, follows⟩ := taken
    rw [known, List.head?_eq_some_iff] at follows
    obtain ⟨later, rfl⟩ := follows
    rw [known, Option.all_some] at double
    exact Option.isSome_iff_exists.mp double
  next => exact Option.isSome_iff_exists.mp alone

/-- What scanning takes from a character of the alphabet on is a lexeme. -/
theorem exists_ofLexeme?_of_inAlphabet
    {first : Char}
    (known : InAlphabet first)
    (begins : ¬ isSeparator first = true)
    (rest : List Char) :
    ∃ terminal, Terminal.ofLexeme? (first :: lexemeTail first rest) = some terminal := by
  obtain separates | continues | listed := known
  · exact absurd separates begins
  · obtain word | digit := (Terminal.continuesWord_iff first).mp continues
    · have noDigit := Terminal.isDigit_eq_false_of_beginsWord word
      rw [lexemeTail, if_neg (Bool.eq_false_iff.mp noDigit), if_pos word]
      exact ⟨_, Terminal.ofLexeme?_of_isWord
        ⟨first, _, rfl, word, List.all_eq_true.mp List.all_takeWhile⟩⟩
    · rw [lexemeTail, if_pos digit]
      exact ⟨_, Terminal.ofLexeme?_of_isDigits ⟨List.cons_ne_nil _ _,
        List.forall_mem_cons.mpr ⟨digit, List.all_eq_true.mp List.all_takeWhile⟩⟩⟩
  · exact exists_ofLexeme?_of_mem_signs listed rest

/-- A text is parted in one way at its first character outside of a class. -/
theorem Text.append_cons_inj_of
    {inClass : Char → Prop}
    {left right before after : List Char}
    {mark other : Char}
    (all : ∀ char ∈ left, inClass char)
    (marks : ¬ inClass mark)
    (allBefore : ∀ char ∈ before, inClass char)
    (marksOther : ¬ inClass other)
    (same : left ++ mark :: right = before ++ other :: after) :
    left = before ∧ mark = other ∧ right = after := by
  obtain ⟨rest, rfl, onward⟩ | ⟨rest, rfl, onward⟩ := List.append_eq_append_iff.mp same
  · cases rest with
    | nil => exact ⟨(List.append_nil _).symm, List.cons.inj onward⟩
    | cons char rest =>
        obtain ⟨rfl, _⟩ := List.cons.inj onward
        exact absurd (allBefore mark (List.mem_append_right _ List.mem_cons_self)) marks
  · cases rest with
    | nil => exact ⟨List.append_nil _, (List.cons.inj onward).imp Eq.symm Eq.symm⟩
    | cons char rest =>
        obtain ⟨rfl, _⟩ := List.cons.inj onward
        exact absurd (all other (List.mem_append_right _ List.mem_cons_self)) marksOther

/-- A text that cannot be scanned has a character outside of the alphabet.  The text before the
first one is tiled, and the error is about that character where it stands. -/
theorem Tokens.exists_foreign_of_scanAt
    {cursor : Cursor}
    {text : List Char}
    {error : RuleError}
    (fails : scanAt cursor text = .error error) :
    ∃ before char after tokens,
      text = before ++ char :: after ∧
        Tiles cursor.offset before tokens ∧
        ¬ InAlphabet char ∧
        error =
          .malformed .unexpectedCharacter (String.singleton char)
            ⟨(cursor.advance before).offset, (cursor.advance (before ++ [char])).offset⟩
            (cursor.advance before).position := by
  fun_induction scanAt cursor text with
  | case1 => cases fails
  | case2 cursor first rest separates inductionHypothesis =>
      obtain ⟨before, char, after, tokens, rfl, tiles, foreign, same⟩ := inductionHypothesis fails
      exact ⟨first :: before, char, after, tokens, rfl, .separator separates tiles, foreign, same⟩
  | case3 cursor first rest begins tail unspelled =>
      refine ⟨[], first, rest, [], rfl, .finish, ?_, (Except.error.inj fails).symm⟩
      intro known
      obtain ⟨terminal, spells⟩ := exists_ofLexeme?_of_inAlphabet known begins rest
      rw [unspelled] at spells
      cases spells
  | case4 cursor first rest begins tail next lexeme terminal spells inductionHypothesis =>
      obtain ⟨before, char, after, tokens, remaining, tiles, foreign, same⟩ :=
        inductionHypothesis (eq_error_of_map_eq_error fails)
      obtain ⟨later, split⟩ := lexemeTail_prefix first rest
      have dropped : rest.drop tail.length = later := by
        rw [← split, List.drop_left]
      rw [dropped] at remaining
      have longest := (lexemeTail_append_eq_iff spells later).mp (by rw [split])
      have longestBefore : ∀ next ∈ before.head?, ¬ Terminal.Extends (first :: tail) next := by
        cases before with
        | nil => simp
        | cons next before =>
            rw [remaining] at longest
            exact longest
      rw [Cursor.offset_advance cursor (first :: tail)] at tiles
      refine ⟨first :: tail ++ before, char, after, _, ?_,
        .lexeme spells longestBefore tiles, foreign, ?_⟩
      · rw [← split, remaining, List.cons_append, List.cons_append, List.append_assoc]
      · rw [same, List.append_assoc, Cursor.advance_append cursor (first :: tail),
          Cursor.advance_append cursor (first :: tail)]

end DecisionRules
