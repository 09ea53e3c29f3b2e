import DecisionRules.Proofs.Binding.Reading
import DecisionRules.Proofs.Decimal.RoundTrip
import DecisionRules.Proofs.Facts.Order
import DecisionRules.Proofs.Text.LetterCase

/-!
# Bindings read back

An entry of facts is written as an argument with its name, an equals sign and the text of its value,
and blanks may stand around the name and the text.  The name is read back because the equals sign is
the first one and the blanks are trimmed.  The value is read back because no number is written like
a truth value, and no text of a value begins or ends with a blank.  So facts are read back from
arguments that write their entries in any order.
-/

namespace DecisionRules

/-! ## Blanks -/

namespace Text

/-- Only blanks. -/
def Blank (text : List Char) : Prop :=
  ∀ char ∈ text, isBlank char = true

instance : DecidablePred Blank :=
  fun text => decidable_of_iff (text.all isBlank = true) List.all_eq_true

/-- No blank stands at either end. -/
structure Trimmed (text : List Char) : Prop where
  /-- The text does not begin with a blank. -/
  begins : ∀ char ∈ text.head?, isBlank char = false
  /-- The text does not end with a blank. -/
  ends : ∀ char ∈ text.getLast?, isBlank char = false

instance : DecidablePred Trimmed :=
  fun text =>
    decidable_of_iff
      (text.head?.all (!isBlank ·) = true ∧ text.getLast?.all (!isBlank ·) = true)
      ⟨fun visible => ⟨fun char first => by simpa [Option.mem_def.mp first] using visible.1,
          fun char last => by simpa [Option.mem_def.mp last] using visible.2⟩,
        fun trimmed => ⟨by simpa [Option.all_eq_true] using trimmed.begins,
          by simpa [Option.all_eq_true] using trimmed.ends⟩⟩

/-- Blanks are dropped from the start of a text that does not begin with one. -/
theorem dropWhile_isBlank_append
    {blanks text : List Char}
    (blank : Blank blanks)
    (begins : ∀ char ∈ text.head?, isBlank char = false) :
    (blanks ++ text).dropWhile isBlank = text := by
  rw [List.dropWhile_append_of_pos blank]
  cases text with
  | nil => rfl
  | cons char rest => simp [begins char rfl]

/-- Blanks are dropped from the end of a text that does not end with one. -/
theorem trimEnd_append
    {text blanks : List Char}
    (ends : ∀ char ∈ text.getLast?, isBlank char = false)
    (blank : Blank blanks) :
    trimEnd (text ++ blanks) = text := by
  rw [trimEnd, List.reverse_append, dropWhile_isBlank_append, List.reverse_reverse]
  · simpa [Blank] using blank
  · rwa [List.head?_reverse]

/-- Blanks around a text that has none at its ends are trimmed. -/
theorem trim_append
    {before text after : List Char}
    (blankBefore : Blank before)
    (trimmed : Trimmed text)
    (blankAfter : Blank after) :
    trim (before ++ text ++ after) = text := by
  cases text with
  | nil =>
      have blank : Blank (before ++ after) := fun char member =>
        (List.mem_append.mp member).elim (blankBefore char) (blankAfter char)
      rw [trim, List.append_nil, List.dropWhile_eq_nil_iff.mpr blank, trimEnd_nil]
  | cons char rest =>
      have begins : ∀ first ∈ (char :: rest ++ after).head?, isBlank first = false :=
        trimmed.begins
      rw [trim, List.append_assoc, dropWhile_isBlank_append blankBefore begins,
        trimEnd_append trimmed.ends blankAfter]

/-- A text without any blank has none at its ends. -/
theorem trimmed_of_forall
    {text : List Char}
    (visible : ∀ char ∈ text, isBlank char = false) :
    Trimmed text :=
  ⟨fun char first => visible char (List.mem_of_mem_head? first),
    fun char last => visible char (List.mem_of_mem_getLast? last)⟩

end Text

/-! ## Texts of values -/

theorem isBlank_of_isDigit {char : Char} (digit : char.isDigit = true) :
    Text.isBlank char = false := by
  rw [isDigit_iff_toNat] at digit
  simp only [Text.isBlank, Text.blankRanges, List.any_cons, List.any_nil, Bool.or_false,
    Bool.or_eq_false_iff, Bool.and_eq_false_iff, decide_eq_false_iff_not]
  omega

namespace Value

/-- The text of a value has no blank. -/
theorem isBlank_of_mem_text {value : Value} {char : Char} (member : char ∈ value.text.toList) :
    Text.isBlank char = false := by
  cases value with
  | number value =>
      rw [text, String.toList_ofList] at member
      obtain digit | sign := Decimal.isDigit_or_mem_of_mem_text member
      · exact isBlank_of_isDigit digit
      · have visible : (Decimal.numeralSigns.all (Text.isBlank · == false)) = true := by decide
        exact eq_of_beq (List.all_eq_true.mp visible char sign)
  | boolean value =>
      have visible : ((boolean value).text.toList.all (Text.isBlank · == false)) = true := by
        cases value <;> decide
      exact eq_of_beq (List.all_eq_true.mp visible char member)

end Value

namespace Binding

/-- A number is not written like a word with a letter that no numeral has. -/
theorem sameLetters_text_number
    (value : Float)
    {word : String}
    {letter : Char}
    (occurs : letter ∈ word.toList.map Char.toLower)
    (noDigit : letter.isDigit = false)
    (noSign : letter ∉ Decimal.numeralSigns.map Char.toLower) :
    Text.sameLetters (Value.number value).text word = false := by
  rw [Bool.eq_false_iff, Ne, Text.sameLetters_iff, Value.text, String.toList_ofList]
  intro same
  rw [← same] at occurs
  obtain ⟨char, member, rfl⟩ := List.mem_map.mp occurs
  obtain digit | sign := Decimal.isDigit_or_mem_of_mem_text member
  · rw [toLower_of_isDigit digit, digit] at noDigit
    cases noDigit
  · exact noSign (List.mem_map_of_mem sign)

/-- A value is read back from its text. -/
theorem value?_text (value : Value) : value? value.text = some value := by
  cases value with
  | number value =>
      have notTrue := sameLetters_text_number value
        (show 't' ∈ "true".toList.map Char.toLower by decide) rfl (by decide)
      have notFalse := sameLetters_text_number value
        (show 's' ∈ "false".toList.map Char.toLower by decide) rfl (by decide)
      rw [value?, notTrue, if_neg Bool.false_ne_true, notFalse, if_neg Bool.false_ne_true,
        Value.text, String.toList_ofList, Decimal.read?_text_eq]
      rfl
  | boolean value => cases value <;> decide

/-! ## Written entries -/

/-- The first equals sign parts a text. -/
theorem split?_append
    {before : List Char}
    (after : List Char)
    (noSeparator : '=' ∉ before) :
    split? (before ++ '=' :: after) = some (before, after) := by
  induction before with
  | nil => rw [List.nil_append, split?, if_pos rfl]
  | cons char rest inductionHypothesis =>
      rw [List.mem_cons, not_or] at noSeparator
      rw [List.cons_append, split?, if_neg (Ne.symm noSeparator.1),
        inductionHypothesis noSeparator.2]
      rfl

/-- A name that an argument can bind. -/
structure IsName (name : String) : Prop where
  /-- The name has characters. -/
  nonempty : name ≠ ""
  /-- The name has no equals sign. -/
  noSeparator : '=' ∉ name.toList
  /-- The name has no blank at its ends. -/
  trimmed : Text.Trimmed name.toList

/-- An argument writes a binding with blanks around the name and around the text of the value. -/
def Writes (argument : String) (binding : String × Value) : Prop :=
  ∃ before afterName beforeValue after : List Char,
    Text.Blank before ∧ Text.Blank afterName ∧ Text.Blank beforeValue ∧ Text.Blank after ∧
      argument.toList =
        before ++ binding.1.toList ++ afterName ++
          '=' :: (beforeValue ++ binding.2.text.toList ++ after)

/-- The equals sign is no blank. -/
theorem separator_notMem_of_blank {text : List Char} (blank : Text.Blank text) : '=' ∉ text :=
  fun member => absurd (blank '=' member) (by decide)

/-- An argument that writes a binding states it. -/
theorem states_of_writes
    {argument : String}
    {binding : String × Value}
    (named : IsName binding.1)
    (writes : Writes argument binding) :
    States argument binding := by
  obtain ⟨name, value⟩ := binding
  obtain ⟨before, afterName, beforeValue, after, blankBefore, blankAfterName, blankBeforeValue,
    blankAfter, written⟩ := writes
  have noSeparator : '=' ∉ before ++ name.toList ++ afterName := by
    rw [List.mem_append, List.mem_append, not_or, not_or]
    exact ⟨⟨separator_notMem_of_blank blankBefore, named.noSeparator⟩,
      separator_notMem_of_blank blankAfterName⟩
  have nameRead := Text.trim_append blankBefore named.trimmed blankAfterName
  have trimmed : Text.Trimmed value.text.toList :=
    Text.trimmed_of_forall fun _ => Value.isBlank_of_mem_text
  have textRead := Text.trim_append blankBeforeValue trimmed blankAfter
  rw [States, read, written, split?_append _ noSeparator]
  simp only [nameRead, textRead, String.ofList_toList, if_neg named.nonempty, value?_text]

/-- Facts are read back from arguments that write their entries, in any order and with any blanks
around the names and the values.  This includes facts about what is not a number. -/
theorem readAll_of_writes
    {facts : Facts}
    {arguments : List String}
    {entries : List (String × Value)}
    (named : ∀ entry ∈ facts.entries, IsName entry.1)
    (rearranged : entries.Perm facts.entries)
    (written : List.Forall₂ Writes arguments entries) :
    readAll arguments = .ok facts := by
  obtain ⟨sameLength, each⟩ := List.forall₂_iff_zip.mp written
  have states : List.Forall₂ States arguments entries := by
    refine List.forall₂_iff_zip.mpr ⟨sameLength, fun paired => ?_⟩
    have member := rearranged.mem_iff.mp (List.of_mem_zip paired).2
    exact states_of_writes (named _ member) (each paired)
  rw [readAll, readEach_of_states states]
  exact congrArg Except.ok (Facts.ofList_of_perm rearranged)

/-- Facts of both kinds are read back from arguments in another order: a negative fraction, a truth
value, and what is not a number under a name of two words. -/
theorem readAll_of_writes_of_three :
    (Decimal.ofRank false (Decimal.infinityRank + 1)).isNaN = true ∧
      readAll ["verified=true", " days =\t-0.1", "a b\u00a0= NaN "] =
        .ok (Facts.ofList
          [("a b", .number (Decimal.ofRank false (Decimal.infinityRank + 1))),
            ("days", .number (Decimal.ofRank true 4591870180066957722)),
            ("verified", .boolean true)]) := by
  have rearranged : List.Perm
      [("verified", .boolean true),
        ("days", .number (Decimal.ofRank true 4591870180066957722)),
        ("a b", .number (Decimal.ofRank false (Decimal.infinityRank + 1)))]
      (Facts.ofList
        [("a b", .number (Decimal.ofRank false (Decimal.infinityRank + 1))),
          ("days", .number (Decimal.ofRank true 4591870180066957722)),
          ("verified", .boolean true)]).entries := by
    decide +kernel
  refine ⟨by decide +kernel, readAll_of_writes ?_ rearranged ?_⟩
  · have named : ∀ name ∈ ["a b", "days", "verified"], IsName name := by
      simp only [List.forall_mem_cons]
      exact ⟨⟨by decide, by decide, by decide⟩,
        ⟨by decide, by decide, by decide⟩,
        ⟨by decide, by decide, by decide⟩, List.forall_mem_nil _⟩
    have names : ∀ entry ∈ (Facts.ofList
        [("a b", .number (Decimal.ofRank false (Decimal.infinityRank + 1))),
          ("days", .number (Decimal.ofRank true 4591870180066957722)),
          ("verified", .boolean true)]).entries, entry.1 ∈ ["a b", "days", "verified"] := by
      decide +kernel
    exact fun entry member => named entry.1 (names entry member)
  · refine .cons ?_ (.cons ?_ (.cons ?_ .nil))
    · exact ⟨[], [], [], [], by decide, by decide, by decide, by decide, by decide⟩
    · exact ⟨[' '], [' '], ['\t'], [], by decide, by decide, by decide, by decide,
        by decide +kernel⟩
    · exact ⟨[], ['\u00a0'], [' '], [' '], by decide, by decide, by decide, by decide,
        by decide +kernel⟩

end Binding
end DecisionRules
