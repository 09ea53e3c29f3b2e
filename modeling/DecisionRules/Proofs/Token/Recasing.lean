import DecisionRules.Proofs.Token.Words
import DecisionRules.Text.Blank
import DecisionRules.Text.Slice
import DecisionRules.Token.Scan

/-!
# Letter case of rule texts

The letter case of a text has no influence on where its tokens begin and end and which symbols they
spell.  So a text in lower case has the tokens of the text, with their lexemes in lower case, or
has the same error with the text that it quotes in lower case.
-/

namespace DecisionRules

/-! ## Characters -/

section Characters

variable {char : Char} (letter : char.isAlpha = true)

include letter

theorem ne_of_isAlpha (sign : Char) (noLetter : sign.isAlpha = false) : char ≠ sign := by
  rintro rfl
  rw [letter] at noLetter
  cases noLetter

theorem utf8Size_of_isAlpha : char.utf8Size = 1 := by
  rw [isAlpha_iff_toNat] at letter
  rw [Char.utf8Size_eq_one_iff, UInt32.le_iff_toNat_le]
  change char.toNat ≤ 127
  omega

theorem isDigit_of_isAlpha : char.isDigit = false := by
  rw [isAlpha_iff_toNat] at letter
  rw [Bool.eq_false_iff, Ne, isDigit_iff_toNat]
  omega

theorem isBlank_of_isAlpha : Text.isBlank char = false := by
  rw [isAlpha_iff_toNat] at letter
  simp only [Text.isBlank, Text.blankRanges, List.any_cons, List.any_nil, Bool.or_false,
    Bool.or_eq_false_iff, Bool.and_eq_false_iff, decide_eq_false_iff_not]
  omega

theorem isSeparator_of_isAlpha : isSeparator char = false := by
  simp [isSeparator, ne_of_isAlpha letter ' ' rfl, ne_of_isAlpha letter '\t' rfl,
    ne_of_isAlpha letter '\r' rfl, ne_of_isAlpha letter '\n' rfl]

theorem secondOf?_of_isAlpha : secondOf? char = none := by
  simp [secondOf?, ne_of_isAlpha letter '!' rfl, ne_of_isAlpha letter '=' rfl,
    ne_of_isAlpha letter '<' rfl, ne_of_isAlpha letter '>' rfl, ne_of_isAlpha letter '&' rfl,
    ne_of_isAlpha letter '|' rfl]

end Characters

theorem isDigit_toLower (char : Char) : char.toLower.isDigit = char.isDigit :=
  apply_toLower (fun _ => isDigit_of_isAlpha) char

theorem secondOf?_toLower (char : Char) : secondOf? char.toLower = secondOf? char :=
  apply_toLower (fun _ => secondOf?_of_isAlpha) char

/-- The second character of an operator is no letter. -/
theorem isAlpha_of_secondOf? {first second : Char} (sign : secondOf? first = some second) :
    second.isAlpha = false := by
  unfold secondOf? at sign
  split at sign
  · cases sign
    rfl
  · split at sign
    · cases sign
      rfl
    · split at sign <;> cases sign
      rfl

namespace Cursor

/-- A character in lower case takes up as much of a text. -/
theorem step_toLower (cursor : Cursor) (char : Char) :
    cursor.step char.toLower = cursor.step char := by
  have letters (letter : Char) (isAlpha : letter.isAlpha = true) :
      cursor.step letter =
        ⟨cursor.offset + 1, cursor.position.line, cursor.position.column + 1⟩ := by
    rw [step, utf8Size_of_isAlpha isAlpha, Position.step,
      if_neg (ne_of_isAlpha isAlpha '\n' rfl)]
  exact apply_toLower letters char

/-- A text in lower case takes up as much. -/
theorem advance_map_toLower (cursor : Cursor) (text : List Char) :
    cursor.advance (text.map Char.toLower) = cursor.advance text := by
  induction text generalizing cursor with
  | nil => rfl
  | cons char rest inductionHypothesis =>
      rw [List.map_cons, advance_cons, advance_cons, step_toLower, inductionHypothesis]

end Cursor

/-! ## Texts -/

theorem toLower_comp_toLower : Char.toLower ∘ Char.toLower = Char.toLower := by
  funext char
  rw [Function.comp_apply, ← Char.toNat_inj, toNat_toLower, toNat_toLower]
  split
  · exact if_neg (by omega)
  · rfl

namespace Text

/-- A word in lower case. -/
def lower (word : String) : String :=
  String.ofList (word.toList.map Char.toLower)

theorem sameLetters_iff_lower (left right : String) :
    sameLetters left right = true ↔ lower left = lower right := by
  rw [sameLetters_iff, lower, lower, String.ofList_inj]

theorem lower_ofList (text : List Char) :
    lower (String.ofList text) = String.ofList (text.map Char.toLower) := by
  rw [lower, String.toList_ofList]

theorem lower_singleton (char : Char) :
    lower (String.singleton char) = String.singleton char.toLower := by
  rw [← String.toList_inj, lower, String.toList_ofList, String.toList_singleton,
    String.toList_singleton]
  rfl

theorem byteWidth_map_toLower (text : List Char) :
    byteWidth (text.map Char.toLower) = byteWidth text := by
  induction text with
  | nil => rfl
  | cons char rest inductionHypothesis =>
      rw [List.map_cons, byteWidth_cons, byteWidth_cons, inductionHypothesis,
        apply_toLower fun _ => utf8Size_of_isAlpha]

theorem takeBytes_map_toLower (count : Nat) (text : List Char) :
    takeBytes count (text.map Char.toLower) = (takeBytes count text).map Char.toLower := by
  induction text generalizing count with
  | nil => rfl
  | cons char rest inductionHypothesis =>
      rw [List.map_cons, takeBytes, takeBytes, apply_toLower fun _ => utf8Size_of_isAlpha]
      split
      · rw [inductionHypothesis, List.map_cons]
      · rfl

theorem dropBytes_map_toLower (count : Nat) (text : List Char) :
    dropBytes count (text.map Char.toLower) = (dropBytes count text).map Char.toLower := by
  induction text generalizing count with
  | nil => rfl
  | cons char rest inductionHypothesis =>
      rw [List.map_cons, dropBytes, dropBytes, apply_toLower fun _ => utf8Size_of_isAlpha]
      split
      · rfl
      · rw [inductionHypothesis]

/-- What a span covers of a text in lower case is what it covers of the text. -/
theorem slice_map_toLower (text : List Char) (span : Span) :
    slice (text.map Char.toLower) span = (slice text span).map Char.toLower := by
  rw [slice, dropBytes_map_toLower, takeBytes_map_toLower, slice]

theorem trimEnd_map_toLower (text : List Char) :
    trimEnd (text.map Char.toLower) = (trimEnd text).map Char.toLower := by
  have blank : isBlank ∘ Char.toLower = isBlank :=
    funext (apply_toLower fun _ => isBlank_of_isAlpha)
  rw [trimEnd, ← List.map_reverse, List.dropWhile_map, blank, ← List.map_reverse, trimEnd]

end Text

/-! ## Lexemes -/

/-- A lexeme goes on as far in lower case. -/
theorem lexemeTail_toLower (first : Char) (rest : List Char) :
    lexemeTail first.toLower (rest.map Char.toLower) =
      (lexemeTail first rest).map Char.toLower := by
  have digits : Char.isDigit ∘ Char.toLower = Char.isDigit := funext isDigit_toLower
  have words : Terminal.continuesWord ∘ Char.toLower = Terminal.continuesWord :=
    funext Terminal.continuesWord_toLower
  have second : ((rest.map Char.toLower).head? == secondOf? first) =
      (rest.head? == secondOf? first) ∨ secondOf? first = none := by
    cases sign : secondOf? first with
    | none => exact .inr rfl
    | some char =>
        refine .inl ?_
        have noLetter := isAlpha_of_secondOf? sign
        cases rest with
        | nil => rfl
        | cons next rest =>
            rw [Bool.eq_iff_iff]
            simp [toLower_eq_iff noLetter]
  rw [lexemeTail, lexemeTail, isDigit_toLower, Terminal.beginsWord_toLower, secondOf?_toLower,
    List.takeWhile_map, List.takeWhile_map, digits, words]
  split
  · rfl
  · split
    · rfl
    · obtain same | none := second
      · rw [same]
        split
        · exact List.map_take.symm
        · rfl
      · rw [none]
        rfl

namespace Terminal

/-- No listed spelling has a letter. -/
theorem isAlpha_of_mem_spellings :
    ∀ spelling ∈ spellings, ∀ char ∈ spelling.1, char.isAlpha = false := by
  have all : ∀ spelling ∈ spellings, spelling.1.all (!Char.isAlpha ·) := by
    decide
  intro spelling listed char member
  simpa using List.all_eq_true.mp (all spelling listed) char member

/-- What has no letters is only itself in lower case. -/
theorem map_toLower_eq_iff
    {signs : List Char}
    (noLetter : ∀ char ∈ signs, char.isAlpha = false)
    (text : List Char) :
    signs = text.map Char.toLower ↔ signs = text := by
  induction signs generalizing text with
  | nil => cases text <;> simp
  | cons sign signs inductionHypothesis =>
      obtain ⟨noLetterSign, noLetterSigns⟩ := List.forall_mem_cons.mp noLetter
      cases text with
      | nil => rfl
      | cons char text =>
          rw [List.map_cons, List.cons.injEq, List.cons.injEq, inductionHypothesis noLetterSigns,
            eq_comm, toLower_eq_iff noLetterSign, eq_comm]

/-- The letter case has no influence on the symbol that a lexeme spells. -/
theorem ofLexeme?_map_toLower (lexeme : List Char) :
    ofLexeme? (lexeme.map Char.toLower) = ofLexeme? lexeme := by
  cases lexeme with
  | nil => rfl
  | cons first rest =>
      have digits : Char.isDigit ∘ Char.toLower = Char.isDigit := funext isDigit_toLower
      have words : continuesWord ∘ Char.toLower = continuesWord := funext continuesWord_toLower
      have keyword : ofKeyword? (String.ofList ((first :: rest).map Char.toLower)) =
          ofKeyword? (String.ofList (first :: rest)) := by
        refine ofKeyword?_congr ((Text.sameLetters_iff _ _).mpr ?_)
        rw [String.toList_ofList, String.toList_ofList, List.map_map, toLower_comp_toLower]
      have listed : (spellings.find? fun spelling =>
            spelling.1 == (first :: rest).map Char.toLower) =
          spellings.find? fun spelling => spelling.1 == first :: rest := by
        rw [← List.head?_filter, ← List.head?_filter]
        refine congrArg List.head? (List.filter_congr fun spelling member => ?_)
        rw [Bool.eq_iff_iff, beq_iff_eq, beq_iff_eq]
        exact map_toLower_eq_iff (isAlpha_of_mem_spellings spelling member) _
      rw [List.map_cons] at keyword listed ⊢
      rw [ofLexeme?, ofLexeme?, isDigit_toLower, beginsWord_toLower, List.all_map, List.all_map,
        digits, words, keyword, listed]

end Terminal

/-! ## Scanning -/

/-- A token with its lexeme in lower case. -/
def Token.lowered (token : Token) : Token :=
  { token with lexeme := Text.lower token.lexeme }

/-- An error that quotes the rule text in lower case. -/
def RuleError.lowered : RuleError → RuleError
  | .malformed fault fragment span position =>
    .malformed fault (Text.lower fragment) span position
  | .unknownVariable name span => .unknownVariable (Text.lower name) span
  | .divisionByZero span => .divisionByZero span

namespace Tokens

/-- Tokens with their lexemes in lower case. -/
def lowered (tokens : Tokens) : Tokens :=
  ⟨tokens.body.map Token.lowered, tokens.finish.lowered⟩

/-- A text in lower case is scanned into the tokens of the text, with their lexemes in lower case,
or has the same error. -/
theorem scanAt_map_toLower (cursor : Cursor) (text : List Char) :
    scanAt cursor (text.map Char.toLower) =
      ((scanAt cursor text).map lowered).mapError RuleError.lowered := by
  fun_induction scanAt cursor text with
  | case1 cursor =>
      rw [List.map_nil, scanAt_nil]
      rfl
  | case2 cursor first rest separates inductionHypothesis =>
      have separatesLower : isSeparator first.toLower = true := by
        rwa [apply_toLower fun _ => isSeparator_of_isAlpha]
      rw [List.map_cons, scanAt_separator cursor _ separatesLower, Cursor.step_toLower,
        inductionHypothesis]
  | case3 cursor first rest begins tail unspelled =>
      have beginsLower : ¬ isSeparator first.toLower = true := by
        rwa [apply_toLower fun _ => isSeparator_of_isAlpha]
      have tailLower : lexemeTail first.toLower (rest.map Char.toLower) =
          tail.map Char.toLower :=
        lexemeTail_toLower first rest
      have unspelledLower :
          Terminal.ofLexeme? (first.toLower :: tail.map Char.toLower) = none := by
        rw [← List.map_cons, Terminal.ofLexeme?_map_toLower, unspelled]
      rw [List.map_cons, scanAt, if_neg beginsLower]
      simp only [tailLower, unspelledLower, Cursor.step_toLower]
      refine congrArg Except.error ?_
      rw [RuleError.lowered, Text.lower_singleton]
  | case4 cursor first rest begins tail next lexeme terminal spells inductionHypothesis =>
      have beginsLower : ¬ isSeparator first.toLower = true := by
        rwa [apply_toLower fun _ => isSeparator_of_isAlpha]
      have tailLower : lexemeTail first.toLower (rest.map Char.toLower) =
          tail.map Char.toLower :=
        lexemeTail_toLower first rest
      have spellsLower :
          Terminal.ofLexeme? (first.toLower :: tail.map Char.toLower) = some terminal := by
        rw [← List.map_cons, Terminal.ofLexeme?_map_toLower, spells]
      have advances : cursor.advance (first.toLower :: tail.map Char.toLower) = next := by
        rw [← List.map_cons, Cursor.advance_map_toLower]
      rw [List.map_cons, scanAt, if_neg beginsLower]
      simp only [tailLower, spellsLower, advances, List.length_map]
      rw [← List.map_drop, inductionHypothesis]
      cases scanAt next (rest.drop tail.length) with
      | error error => rfl
      | ok tokens =>
          refine congrArg Except.ok ?_
          simp only [cons, lowered, List.map_cons, Token.lowered, lexeme, Text.lower_ofList]

end Tokens

end DecisionRules
