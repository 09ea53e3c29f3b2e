import DecisionRules.Proofs.Text.LetterCase
import DecisionRules.Token.Scan

/-!
# Lexemes

A lexeme is a run of digits, a word, or the spelling of a parenthesis or operator.  Some
characters would make a lexeme longer if they followed it: a digit after a run of digits, a
character of words after a word, and the second character of an operator after its first one.
Scanning takes the longest lexeme, which is one that no following character makes longer.
-/

namespace DecisionRules

namespace Terminal

/-- A run of digits. -/
def IsDigits (lexeme : List Char) : Prop :=
  lexeme ≠ [] ∧ ∀ char ∈ lexeme, char.isDigit = true

/-- A word begins with a letter or an underscore and may go on with digits. -/
def IsWord (lexeme : List Char) : Prop :=
  ∃ first rest, lexeme = first :: rest ∧ beginsWord first = true ∧
    ∀ char ∈ rest, continuesWord char = true

theorem beginsWord_iff_toNat (char : Char) :
    beginsWord char = true ↔
      (65 ≤ char.toNat ∧ char.toNat ≤ 90 ∨ 97 ≤ char.toNat ∧ char.toNat ≤ 122) ∨
        char.toNat = 95 := by
  rw [beginsWord, Bool.or_eq_true, isAlpha_iff_toNat, beq_iff_eq, eq_underscore_iff_toNat]

theorem continuesWord_iff (char : Char) :
    continuesWord char = true ↔ beginsWord char = true ∨ char.isDigit = true := by
  rw [continuesWord, beginsWord, Char.isAlphanum]
  simp only [Bool.or_eq_true]
  exact or_right_comm

/-- No word begins with a digit. -/
theorem isDigit_eq_false_of_beginsWord {char : Char} (begins : beginsWord char = true) :
    char.isDigit = false := by
  rw [Bool.eq_false_iff, Ne, isDigit_iff_toNat]
  rw [beginsWord_iff_toNat] at begins
  omega

/-- A word spells a reserved word or an identifier. -/
theorem ofLexeme?_of_isWord {lexeme : List Char} (word : IsWord lexeme) :
    ofLexeme? lexeme = some ((ofKeyword? (String.ofList lexeme)).getD .identifier) := by
  obtain ⟨first, rest, rfl, begins, continues⟩ := word
  rw [ofLexeme?, isDigit_eq_false_of_beginsWord begins, begins, List.all_eq_true.mpr continues]
  rfl

/-- A run of digits spells a number. -/
theorem ofLexeme?_of_isDigits {lexeme : List Char} (digits : IsDigits lexeme) :
    ofLexeme? lexeme = some .number := by
  obtain ⟨nonempty, spelled⟩ := digits
  obtain ⟨first, rest, rfl⟩ := List.exists_cons_of_ne_nil nonempty
  rw [ofLexeme?, if_pos]
  rw [spelled first List.mem_cons_self, List.all_eq_true.mpr]
  · rfl
  · exact fun char member => spelled char (List.mem_cons_of_mem first member)

/-- The terminal symbol of a word is a reserved one or an identifier. -/
theorem ofKeyword?_getD_mem (word : String) :
    (ofKeyword? word).getD .identifier ∈ identifier :: keywords.map Prod.snd := by
  unfold ofKeyword?
  cases found : keywords.find? fun keyword => Text.sameLetters keyword.1 word with
  | none => exact List.mem_cons_self
  | some keyword =>
      exact List.mem_cons_of_mem _ (List.mem_map_of_mem (List.mem_of_find?_eq_some found))

/-- What spells a terminal symbol is a number, a word or a listed spelling. -/
theorem ofLexeme?_cases
    {lexeme : List Char}
    {terminal : Terminal}
    (spells : ofLexeme? lexeme = some terminal) :
    (IsDigits lexeme ∧ terminal = .number) ∨
    (IsWord lexeme ∧ terminal = (ofKeyword? (String.ofList lexeme)).getD .identifier) ∨
    (lexeme, terminal) ∈ spellings := by
  cases lexeme with
  | nil => cases spells
  | cons first rest =>
      rw [ofLexeme?] at spells
      split at spells
      next digits =>
        refine .inl ⟨⟨List.cons_ne_nil _ _, ?_⟩, (Option.some.inj spells).symm⟩
        simpa using digits
      next =>
        split at spells
        next word =>
          simp only [Bool.and_eq_true, List.all_eq_true] at word
          exact .inr (.inl ⟨⟨first, rest, rfl, word⟩, (Option.some.inj spells).symm⟩)
        next =>
          obtain ⟨spelling, found, rfl⟩ := Option.map_eq_some_iff.mp spells
          have same : spelling.1 = first :: rest := by
            simpa using List.find?_some found
          rw [← same]
          exact .inr (.inr (List.mem_of_find?_eq_some found))

/-- No listed spelling is a number, a name or the end of the text. -/
theorem ne_of_mem_spellings
    {lexeme : List Char}
    {terminal : Terminal}
    (listed : (lexeme, terminal) ∈ spellings) :
    terminal ≠ .number ∧ terminal ≠ .identifier ∧ terminal ≠ .finish := by
  have all : ∀ spelling ∈ spellings,
      spelling.2 ≠ .number ∧ spelling.2 ≠ .identifier ∧ spelling.2 ≠ .finish := by
    decide
  exact all _ listed

/-- No lexeme spells the end of the text. -/
theorem ne_finish_of_ofLexeme?
    {lexeme : List Char}
    {terminal : Terminal}
    (spells : ofLexeme? lexeme = some terminal) :
    terminal ≠ .finish := by
  obtain ⟨_, rfl⟩ | ⟨_, same⟩ | listed := ofLexeme?_cases spells
  · decide
  · rintro rfl
    have reserved := ofKeyword?_getD_mem (String.ofList lexeme)
    rw [← same] at reserved
    exact absurd reserved (by decide)
  · exact (ne_of_mem_spellings listed).2.2

/-- Only a run of digits spells a number. -/
theorem isDigits_of_ofLexeme?
    {lexeme : List Char}
    (spells : ofLexeme? lexeme = some .number) :
    IsDigits lexeme := by
  obtain ⟨digits, _⟩ | ⟨_, word⟩ | listed := ofLexeme?_cases spells
  · exact digits
  · have reserved := ofKeyword?_getD_mem (String.ofList lexeme)
    rw [← word] at reserved
    exact absurd reserved (by decide)
  · exact absurd rfl (ne_of_mem_spellings listed).1

end Terminal

/-- A listed spelling has no second character but the one that an operator can have. -/
theorem Terminal.secondOf?_of_mem_spellings
    {first : Char}
    {tail : List Char}
    {terminal : Terminal}
    (listed : (first :: tail, terminal) ∈ spellings) :
    first.isDigit = false ∧ beginsWord first = false ∧
      (tail = [] ∨ tail = (secondOf? first).toList) := by
  have all : ∀ spelling ∈ spellings,
      (spelling.1.headD ' ').isDigit = false ∧ beginsWord (spelling.1.headD ' ') = false ∧
        (spelling.1.tail = [] ∨
          spelling.1.tail = (secondOf? (spelling.1.headD ' ')).toList) := by
    decide
  exact all _ listed

/-- No lexeme begins with a separator. -/
theorem isSeparator_eq_false_of_ofLexeme?
    {first : Char}
    {tail : List Char}
    {terminal : Terminal}
    (spells : Terminal.ofLexeme? (first :: tail) = some terminal) :
    isSeparator first = false := by
  rw [Bool.eq_false_iff]
  intro separates
  simp only [isSeparator, Bool.or_eq_true, beq_iff_eq] at separates
  obtain ((rfl | rfl) | rfl) | rfl := separates <;>
    simp [Terminal.ofLexeme?, Terminal.beginsWord, Terminal.spellings] at spells

/-- What belongs to a lexeme is the beginning of what follows its first character. -/
theorem lexemeTail_prefix (first : Char) (rest : List Char) : lexemeTail first rest <+: rest := by
  unfold lexemeTail
  split
  · exact List.takeWhile_prefix _
  · split
    · exact List.takeWhile_prefix _
    · split
      · exact List.take_prefix 1 rest
      · exact List.nil_prefix

/-! ## Longest lexemes -/

namespace Terminal

/-- The characters that would make a lexeme longer. -/
inductive Extends : List Char → Char → Prop
  /-- A digit after a run of digits. -/
  | digit {lexeme : List Char} {next : Char} :
      IsDigits lexeme → next.isDigit = true → Extends lexeme next
  /-- A letter, a digit or an underscore after a word. -/
  | word {lexeme : List Char} {next : Char} :
      IsWord lexeme → continuesWord next = true → Extends lexeme next
  /-- An equals sign after an operator that may end with one. -/
  | equals {first : Char} : first ∈ ['!', '=', '<', '>'] → Extends [first] '='
  /-- The second half of the sign for `and`. -/
  | conjunction : Extends ['&'] '&'
  /-- The second half of the sign for `or`. -/
  | disjunction : Extends ['|'] '|'

/-- A character that an equals sign goes on with begins no number and no word. -/
theorem of_mem_equals {first : Char} (sign : first ∈ ['!', '=', '<', '>']) :
    first.isDigit = false ∧ beginsWord first = false ∧ secondOf? first = some '=' := by
  simp only [List.mem_cons, List.not_mem_nil, or_false] at sign
  obtain rfl | rfl | rfl | rfl := sign <;> decide

/-- Only a digit goes on with a run of digits. -/
theorem extends_iff_of_isDigits {lexeme : List Char} (digits : IsDigits lexeme) (next : Char) :
    Extends lexeme next ↔ next.isDigit = true := by
  refine ⟨fun longer => ?_, .digit digits⟩
  obtain ⟨_, all⟩ := digits
  cases longer with
  | digit _ goesOn => exact goesOn
  | word word _ =>
      obtain ⟨first, rest, rfl, begins, _⟩ := word
      have notDigit := isDigit_eq_false_of_beginsWord begins
      rw [all first List.mem_cons_self] at notDigit
      cases notDigit
  | equals sign =>
      have notDigit := (of_mem_equals sign).1
      rw [all _ List.mem_cons_self] at notDigit
      cases notDigit
  | conjunction => exact absurd (all '&' List.mem_cons_self) (by decide)
  | disjunction => exact absurd (all '|' List.mem_cons_self) (by decide)

/-- Only a character of words goes on with a word. -/
theorem extends_iff_of_isWord {lexeme : List Char} (word : IsWord lexeme) (next : Char) :
    Extends lexeme next ↔ continuesWord next = true := by
  refine ⟨fun longer => ?_, .word word⟩
  obtain ⟨first, rest, spelled, begins, _⟩ := word
  cases longer with
  | digit _ goesOn => exact (continuesWord_iff next).mpr (.inr goesOn)
  | word _ goesOn => exact goesOn
  | equals sign =>
      have notWord := (of_mem_equals sign).2.1
      obtain ⟨rfl, _⟩ := List.cons_eq_cons.mp spelled
      rw [begins] at notWord
      cases notWord
  | conjunction =>
      obtain ⟨rfl, _⟩ := List.cons_eq_cons.mp spelled
      exact absurd begins (by decide)
  | disjunction =>
      obtain ⟨rfl, _⟩ := List.cons_eq_cons.mp spelled
      exact absurd begins (by decide)

/-- The second character of an operator goes on with the first one. -/
theorem extends_of_secondOf? {first next : Char} (second : secondOf? first = some next) :
    Extends [first] next := by
  simp only [secondOf?, Bool.or_eq_true, beq_iff_eq] at second
  split at second
  next sign =>
    obtain rfl := Option.some.inj second
    exact .equals (by simpa [or_assoc] using sign)
  next =>
    split at second
    next sign =>
      obtain rfl := Option.some.inj second
      exact sign ▸ .conjunction
    next =>
      split at second
      next sign =>
        obtain rfl := Option.some.inj second
        exact sign ▸ .disjunction
      next => cases second

/-- Only the second character of an operator goes on with a listed spelling. -/
theorem extends_iff_of_mem_spellings
    {first : Char}
    {tail : List Char}
    {terminal : Terminal}
    (listed : (first :: tail, terminal) ∈ spellings)
    (next : Char) :
    Extends (first :: tail) next ↔ tail = [] ∧ secondOf? first = some next := by
  obtain ⟨notDigit, notWord, _⟩ := secondOf?_of_mem_spellings listed
  constructor
  · intro longer
    cases longer with
    | digit digits _ =>
        rw [digits.2 first List.mem_cons_self] at notDigit
        cases notDigit
    | word word _ =>
        obtain ⟨_, _, spelled, begins, _⟩ := word
        obtain ⟨rfl, _⟩ := List.cons_eq_cons.mp spelled
        rw [begins] at notWord
        cases notWord
    | equals sign => exact ⟨rfl, (of_mem_equals sign).2.2⟩
    | conjunction => exact ⟨rfl, rfl⟩
    | disjunction => exact ⟨rfl, rfl⟩
  · rintro ⟨rfl, second⟩
    exact extends_of_secondOf? second

/-- Nothing goes on with an opening parenthesis. -/
theorem not_extends_opening (next : Char) : ¬ Extends ['('] next := by
  have listed : (['('], .leftParen) ∈ spellings := by decide
  rw [extends_iff_of_mem_spellings listed]
  exact fun longer => nomatch longer.2

end Terminal

/-- What goes on with a class of characters is that class up to the first other character. -/
theorem takeWhile_append_eq_iff
    {goesOn : Char → Bool}
    {tail : List Char}
    (all : ∀ char ∈ tail, goesOn char = true)
    (rest : List Char) :
    (tail ++ rest).takeWhile goesOn = tail ↔ ∀ next ∈ rest.head?, ¬ goesOn next = true := by
  rw [List.takeWhile_append_of_pos all, List.append_right_eq_self]
  cases rest with
  | nil => simp
  | cons char later => simp [List.takeWhile_cons]

/-- Scanning takes a lexeme in front of a text when nothing there makes it longer. -/
theorem lexemeTail_append_eq_iff
    {first : Char}
    {tail : List Char}
    {terminal : Terminal}
    (spells : Terminal.ofLexeme? (first :: tail) = some terminal)
    (rest : List Char) :
    lexemeTail first (tail ++ rest) = tail ↔
      ∀ next ∈ rest.head?, ¬ Terminal.Extends (first :: tail) next := by
  obtain ⟨digits, _⟩ | ⟨word, _⟩ | listed := Terminal.ofLexeme?_cases spells
  · obtain ⟨digit, digitsTail⟩ := List.forall_mem_cons.mp digits.2
    simp only [Terminal.extends_iff_of_isDigits digits]
    rw [lexemeTail, if_pos digit, takeWhile_append_eq_iff digitsTail]
  · simp only [Terminal.extends_iff_of_isWord word]
    obtain ⟨_, _, spelled, begins, continues⟩ := word
    obtain ⟨rfl, rfl⟩ := List.cons_eq_cons.mp spelled
    have notDigit := Terminal.isDigit_eq_false_of_beginsWord begins
    rw [lexemeTail, if_neg (Bool.eq_false_iff.mp notDigit), if_pos begins,
      takeWhile_append_eq_iff continues]
  · simp only [Terminal.extends_iff_of_mem_spellings listed]
    obtain ⟨notDigit, notWord, second⟩ := Terminal.secondOf?_of_mem_spellings listed
    rw [lexemeTail, if_neg (Bool.eq_false_iff.mp notDigit),
      if_neg (Bool.eq_false_iff.mp notWord)]
    cases known : secondOf? first with
    | none =>
        obtain rfl : tail = [] := by simpa [known] using second
        simp
    | some char =>
        obtain rfl | rfl := second
        · cases rest with
          | nil => simp
          | cons next later =>
              by_cases same : next = char
              · simp [same]
              · simp [same, Ne.symm same]
        · simp [known]

/-! ## Detached texts -/

/-- A text that no lexeme before it goes on with. -/
def Detached (rest : List Char) : Prop :=
  ∀ char ∈ rest.head?, ∀ lexeme, ¬ Terminal.Extends lexeme char

theorem detached_nil : Detached [] :=
  fun _ member => by cases member

/-- A character that belongs to no word and is no second one ends every lexeme. -/
theorem detached_cons
    {char : Char}
    (rest : List Char)
    (noWord : Terminal.continuesWord char = false)
    (noSecond : char ∉ ['=', '&', '|']) :
    Detached (char :: rest) := by
  intro head member lexeme longer
  obtain rfl := Option.some.inj member
  cases longer with
  | digit _ goesOn =>
      rw [(Terminal.continuesWord_iff char).mpr (.inr goesOn)] at noWord
      cases noWord
  | word _ goesOn =>
      rw [goesOn] at noWord
      cases noWord
  | equals => exact noSecond (by decide)
  | conjunction => exact noSecond (by decide)
  | disjunction => exact noSecond (by decide)

/-- A separator ends every lexeme. -/
theorem detached_separator
    {char : Char}
    (separates : isSeparator char = true)
    (rest : List Char) :
    Detached (char :: rest) := by
  simp only [isSeparator, Bool.or_eq_true, beq_iff_eq] at separates
  obtain ((rfl | rfl) | rfl) | rfl := separates <;>
    exact detached_cons rest (by decide) (by decide)

theorem detached_blank (rest : List Char) : Detached (' ' :: rest) :=
  detached_separator rfl rest

theorem detached_closing (rest : List Char) : Detached (')' :: rest) :=
  detached_cons rest (by decide) (by decide)

end DecisionRules
