import DecisionRules.Expr.Parser
import DecisionRules.Proofs.Token.Alphabet

/-!
# Foreign characters

A rule text can be scanned if and only if it is written with the alphabet.  What cannot be scanned
has a first foreign character, and the error is about that one: no lexeme before it reaches over it,
and nothing that is wrong with the text before it matters.
-/

namespace DecisionRules

/-- The error about a character that stands after some text. -/
def RuleError.foreign (before : List Char) (char : Char) : RuleError :=
  .malformed .unexpectedCharacter (String.singleton char)
    ⟨Text.byteWidth before, Text.byteWidth before + char.utf8Size⟩ (.after before)

namespace Tokens

variable {source : String}

/-- A text that cannot be scanned fails at its first foreign character. -/
theorem exists_foreign_of_scan
    {error : RuleError}
    (fails : scan source = .error error) :
    ∃ before char after,
      source.toList = before ++ char :: after ∧
        (∀ earlier ∈ before, InAlphabet earlier) ∧
        ¬ InAlphabet char ∧
        error = .foreign before char := by
  obtain ⟨before, char, after, tokens, text, tiles, foreign, same⟩ := exists_foreign_of_scanAt fails
  refine ⟨before, char, after, text, tiles.inAlphabet, foreign, ?_⟩
  rw [same, Cursor.advance_start, Cursor.advance_start, Text.byteWidth_append]
  rfl

/-- A text can be scanned if and only if it is written with the alphabet. -/
theorem exists_scan_iff :
    (∃ tokens, scan source = .ok tokens) ↔ ∀ char ∈ source.toList, InAlphabet char := by
  constructor
  · rintro ⟨tokens, scanned⟩
    have tiles : Tiles 0 source.toList tokens.body := tiles_of_scanAt scanned
    exact tiles.inAlphabet
  · intro known
    cases scanned : scan source with
    | ok tokens => exact ⟨tokens, rfl⟩
    | error error =>
        obtain ⟨before, char, after, text, _, foreign, _⟩ := exists_foreign_of_scan scanned
        refine absurd (known char ?_) foreign
        rw [text]
        exact List.mem_append_right _ List.mem_cons_self

/-- Scanning fails with an error if and only if that is the error about the first foreign
character. -/
theorem scan_eq_error_iff {error : RuleError} :
    scan source = .error error ↔
      ∃ before char after,
        source.toList = before ++ char :: after ∧
          (∀ earlier ∈ before, InAlphabet earlier) ∧
          ¬ InAlphabet char ∧
          error = .foreign before char := by
  refine ⟨exists_foreign_of_scan, ?_⟩
  rintro ⟨before, char, after, text, known, foreign, rfl⟩
  cases scanned : scan source with
  | ok tokens =>
      have all := exists_scan_iff.mp ⟨tokens, scanned⟩
      refine absurd (all char ?_) foreign
      rw [text]
      exact List.mem_append_right _ List.mem_cons_self
  | error found =>
      obtain ⟨_, _, _, other, knownOther, foreignOther, rfl⟩ := exists_foreign_of_scan scanned
      obtain ⟨rfl, rfl, _⟩ :=
        Text.append_cons_inj_of known foreign knownOther foreignOther (text.symm.trans other)
      rfl

/-- The alphabet consists of the letters and digits of ASCII, the underscore, the characters of
parentheses and operators, and the separators.  A text can be scanned if and only if it is written
with it.  Otherwise scanning fails at the first foreign character.  The error quotes that character
and covers its bytes, and no others.  When the text is read as a rule, the error is the same,
whatever the vocabulary and the limit are, and so whatever else is wrong with the text. -/
theorem scan_by_alphabet (source : String) :
    (∀ char,
      InAlphabet char ↔
        char.isAlpha = true ∨ char.isDigit = true ∨
          char ∈
            ['_', '(', ')', '*', '/', '+', '-', '!', '=', '<', '>', '&', '|', ' ', '\t', '\r',
              '\n']) ∧
    ((∃ tokens, scan source = .ok tokens) ↔ ∀ char ∈ source.toList, InAlphabet char) ∧
    (∀ error,
      scan source = .error error ↔
        ∃ before char after,
          source.toList = before ++ char :: after ∧
            (∀ earlier ∈ before, InAlphabet earlier) ∧
            ¬ InAlphabet char ∧
            error =
              .malformed .unexpectedCharacter (String.singleton char)
                ⟨Text.byteWidth before, Text.byteWidth before + char.utf8Size⟩ (.after before)) ∧
    ∀ error,
      scan source = .error error →
        ∀ vocabulary maxDepth, Expr.parse vocabulary maxDepth source = .error error := by
  refine ⟨inAlphabet_iff, exists_scan_iff, fun error => scan_eq_error_iff, ?_⟩
  intro error fails vocabulary maxDepth
  rw [Expr.parse, fails]

/-- The error about `karma > (ä` is about its last character, although no group may be opened there,
the group is not closed, and the vocabulary has no such name. -/
theorem scan_by_alphabet_of_umlaut :
    scan "karma > (ä" = .error (.malformed .unexpectedCharacter "ä" ⟨9, 11⟩ ⟨1, 10⟩) ∧
      Expr.parse .standard 0 "karma > (ä" =
        .error (.malformed .unexpectedCharacter "ä" ⟨9, 11⟩ ⟨1, 10⟩) := by
  obtain ⟨_, _, fails, same⟩ := scan_by_alphabet "karma > (ä"
  have foreign : scan "karma > (ä" =
      .error (.malformed .unexpectedCharacter "ä" ⟨9, 11⟩ ⟨1, 10⟩) :=
    (fails _).mpr ⟨"karma > (".toList, 'ä', [], rfl, by simp [inAlphabet_iff], by decide, rfl⟩
  exact ⟨foreign, same _ foreign .standard 0⟩

end Tokens
end DecisionRules
