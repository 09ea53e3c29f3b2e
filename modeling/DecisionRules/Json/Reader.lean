import DecisionRules.Json.Basic
import DecisionRules.Reading

/-!
# Reading JSON

The reader accepts exactly the texts of the JSON grammar: no byte order mark, no comments, no
commas at the end of a list, no control characters in strings, no zeros in front of numbers.
-/

namespace DecisionRules
namespace Json

/-- The blanks of JSON. -/
def isBlank (char : Char) : Bool :=
  char == ' ' || char == '\t' || char == '\n' || char == '\r'

/-- A text without the blanks in front. -/
def skipBlanks (text : List Char) : List Char :=
  text.dropWhile isBlank

theorem length_skipBlanks (text : List Char) : (skipBlanks text).length ≤ text.length :=
  (List.dropWhile_sublist isBlank).length_le

/-! ## Strings -/

/-- A character of a string, as it is written. -/
inductive StringUnit
  /-- A character that stands for itself, or a short escape of it. -/
  | char (char : Char)
  /-- A code unit, escaped by its four hexadecimal digits. -/
  | escaped (code : Nat)

/-- The value of a hexadecimal digit. -/
def hexDigit? (char : Char) : Option Nat :=
  if char.isDigit then some (char.toNat - '0'.toNat)
  else if 'a' ≤ char ∧ char ≤ 'f' then some (char.toNat - 'a'.toNat + 10)
  else if 'A' ≤ char ∧ char ≤ 'F' then some (char.toNat - 'A'.toNat + 10)
  else none

/-- The value of four hexadecimal digits. -/
def hexCode? (first second third fourth : Char) : Option Nat := do
  let first ← hexDigit? first
  let second ← hexDigit? second
  let third ← hexDigit? third
  let fourth ← hexDigit? fourth
  return ((first * 16 + second) * 16 + third) * 16 + fourth

/-- The character that a short escape stands for. -/
def shortEscape? : Char → Option Char
  | '"' => some '"'
  | '\\' => some '\\'
  | '/' => some '/'
  | 'b' => some '\x08'
  | 'f' => some '\x0c'
  | 'n' => some '\n'
  | 'r' => some '\r'
  | 't' => some '\t'
  | _ => none

/-- One more unit in front of a string, whatever follows the string. -/
def consUnit
    (unit : StringUnit)
    (string : List StringUnit × List Char) :
    List StringUnit × List Char :=
  (unit :: string.1, string.2)

/-- The units of a string up to its closing quote, and what follows the quote. -/
def stringUnits? : List Char → Option (List StringUnit × List Char)
  | [] => none
  | '"' :: rest => some ([], rest)
  | '\\' :: 'u' :: first :: second :: third :: fourth :: rest =>
    match hexCode? first second third fourth with
    | none => none
    | some code => (stringUnits? rest).map (consUnit (.escaped code))
  | '\\' :: letter :: rest =>
    match shortEscape? letter with
    | none => none
    | some char => (stringUnits? rest).map (consUnit (.char char))
  | char :: rest =>
    if char.toNat < 0x20 ∨ char = '\\' then none
    else (stringUnits? rest).map (consUnit (.char char))

/-- The closing quote is taken together with what stands before it. -/
theorem length_stringUnits?
    {text : List Char}
    {string : List StringUnit × List Char}
    (read : stringUnits? text = some string) :
    string.2.length < text.length := by
  fun_induction stringUnits? text generalizing string with
  | case1 => cases read
  | case2 rest => cases read; simp
  | case3 => cases read
  | case4 first second third fourth rest code _ ih =>
      obtain ⟨tail, readTail, rfl⟩ := Option.map_eq_some_iff.mp read
      have shorter := ih readTail
      simp only [consUnit, List.length_cons]
      omega
  | case5 => cases read
  | case6 letter rest _ char _ ih =>
      obtain ⟨tail, readTail, rfl⟩ := Option.map_eq_some_iff.mp read
      have shorter := ih readTail
      simp only [consUnit, List.length_cons]
      omega
  | case7 => cases read
  | case8 char rest _ _ _ _ ih =>
      obtain ⟨tail, readTail, rfl⟩ := Option.map_eq_some_iff.mp read
      have shorter := ih readTail
      simp only [consUnit, List.length_cons]
      omega

/-- The first half of a pair of surrogates. -/
def isHighSurrogate (code : Nat) : Bool :=
  0xd800 ≤ code && code ≤ 0xdbff

/-- The second half of a pair of surrogates. -/
def isLowSurrogate (code : Nat) : Bool :=
  0xdc00 ≤ code && code ≤ 0xdfff

/-- The text that units make up; a surrogate without its partner makes up none. -/
def unitsText? : List StringUnit → Option (List Char)
  | [] => some []
  | .char char :: rest => (unitsText? rest).map (char :: ·)
  | .escaped high :: .escaped low :: rest =>
    if isHighSurrogate high then
      if isLowSurrogate low then
        (unitsText? rest).map
          (Char.ofNat (0x10000 + (high - 0xd800) * 0x400 + (low - 0xdc00)) :: ·)
      else none
    else if isLowSurrogate high then none
    else (unitsText? (.escaped low :: rest)).map (Char.ofNat high :: ·)
  | .escaped code :: rest =>
    if isHighSurrogate code || isLowSurrogate code then none
    else (unitsText? rest).map (Char.ofNat code :: ·)

/-- Reads a string whose opening quote has been taken. -/
def readString? (text : List Char) : Option (Reading (Option String) text) :=
  match read : stringUnits? text with
  | none => none
  | some (units, after) =>
    some ⟨(unitsText? units).map String.ofList, after, length_stringUnits? read⟩

/-! ## Numbers -/

/-- The digits that a mark asks for, with the mark; there have to be some. -/
def markedDigits? (mark text : List Char) : Option (List Char) :=
  let digits := text.takeWhile Char.isDigit
  if digits.isEmpty then none else some (mark ++ digits)

/-- The whole part of a number. -/
def wholePart? : List Char → Option (List Char)
  | '0' :: _ => some ['0']
  | text => markedDigits? [] text

/-- The fraction of a number, which there need not be. -/
def fractionPart? : List Char → Option (List Char)
  | '.' :: rest => markedDigits? ['.'] rest
  | _ => some []

/-- The exponent of a number, which there need not be. -/
def exponentPart? : List Char → Option (List Char)
  | mark :: rest =>
    if mark = 'e' ∨ mark = 'E' then
      match rest with
      | '+' :: digits => markedDigits? [mark, '+'] digits
      | '-' :: digits => markedDigits? [mark, '-'] digits
      | digits => markedDigits? [mark] digits
    else some []
  | [] => some []

/-- The part of a text that spells a number without a sign. -/
def unsigned? (text : List Char) : Option (List Char) := do
  let whole ← wholePart? text
  let fraction ← fractionPart? (text.drop whole.length)
  let exponent ← exponentPart? (text.drop (whole ++ fraction).length)
  return whole ++ fraction ++ exponent

/-- The part of a text that spells a number. -/
def numeral? : List Char → Option (List Char)
  | '-' :: rest => (unsigned? rest).map ('-' :: ·)
  | text => unsigned? text

/-- Reads a number. -/
def readNumber? (text : List Char) : Option (Reading Json text) :=
  match numeral? text, text with
  | some (_ :: tail), first :: rest =>
    some ⟨.number (first :: tail), rest.drop tail.length, by
      simp only [List.length_drop, List.length_cons]
      omega⟩
  | _, _ => none

/-! ## Values -/

/-- Reads a word that stands for a value. -/
def readWord? (word : List Char) (value : Json) (text : List Char) :
    Option (Reading Json text) :=
  match word, text with
  | _ :: tail, _ :: rest =>
    if word.isPrefixOf text then
      some ⟨value, rest.drop tail.length, by
        simp only [List.length_drop, List.length_cons]
        omega⟩
    else none
  | _, _ => none

/-- Reads items with commas between them, up to and including what closes their list. -/
def readItems?
    (close : Char)
    (limit : Nat)
    (item? : (text : List Char) → text.length ≤ limit → Option (Reading α text))
    (text : List Char)
    (within : text.length ≤ limit) :
    Option (Reading (List α) text) :=
  match item? text within with
  | none => none
  | some item =>
    have fewer := length_skipBlanks item.rest
    have shorter := item.shorter
    match after : skipBlanks item.rest with
    | [] => none
    | next :: rest =>
      have step : rest.length < text.length := by
        rw [after, List.length_cons] at fewer
        omega
      if next = close then some ⟨[item.value], rest, step⟩
      else if next = ',' then
        match readItems? close limit item? rest (by omega) with
        | none => none
        | some items => some ⟨item.value :: items.value, items.rest, by
            have := items.shorter
            omega⟩
      else none
  termination_by text.length

/-- Reads a list that may be empty, up to and including what closes it. -/
def readList?
    (close : Char)
    (limit : Nat)
    (item? : (text : List Char) → text.length ≤ limit → Option (Reading α text))
    (text : List Char)
    (within : text.length ≤ limit) :
    Option (Reading (List α) text) :=
  have fewer := length_skipBlanks text
  match after : skipBlanks text with
  | [] => none
  | first :: rest =>
    if first = close then
      some ⟨[], rest, by
        rw [after, List.length_cons] at fewer
        omega⟩
    else readItems? close limit item? text within

/-- Reads a member of an object, whose value is read as told. -/
def readMember?
    (limit : Nat)
    (value? : (text : List Char) → text.length ≤ limit → Option (Reading Json text))
    (text : List Char)
    (within : text.length ≤ limit) :
    Option (Reading (Option String × Json) text) :=
  have fewer := length_skipBlanks text
  match opening : skipBlanks text with
  | '"' :: rest =>
    match readString? rest with
    | none => none
    | some name =>
      have fewerStill := length_skipBlanks name.rest
      have shorter := name.shorter
      match colon : skipBlanks name.rest with
      | ':' :: after =>
        have step : after.length < text.length := by
          rw [colon, List.length_cons] at fewerStill
          rw [opening, List.length_cons] at fewer
          omega
        match value? after (by omega) with
        | none => none
        | some value => some ⟨(name.value, value.value), value.rest, by
            have := value.shorter
            omega⟩
      | _ => none
  | _ => none

/-- Reads a value that holds no other values. -/
def readScalar? (text : List Char) : Option (Reading Json text) :=
  match text with
  | '"' :: rest =>
    (readString? rest).map fun string =>
      (string.map Json.string).widen (Nat.le_succ _)
  | 'n' :: rest => readWord? ['n', 'u', 'l', 'l'] .null ('n' :: rest)
  | 't' :: rest => readWord? ['t', 'r', 'u', 'e'] (.boolean true) ('t' :: rest)
  | 'f' :: rest => readWord? ['f', 'a', 'l', 's', 'e'] (.boolean false) ('f' :: rest)
  | rest => readNumber? rest

/-- Reads a value, with the blanks in front of it. -/
def readValue? (text : List Char) : Option (Reading Json text) :=
  have fewer := length_skipBlanks text
  match opening : skipBlanks text with
  | '[' :: rest =>
    have step : rest.length < text.length := by
      rw [opening, List.length_cons] at fewer
      omega
    (readList? ']' rest.length (fun part _ => readValue? part) rest (Nat.le_refl _)).map
      fun elements => (elements.map .array).widen (Nat.le_of_lt step)
  | '{' :: rest =>
    have step : rest.length < text.length := by
      rw [opening, List.length_cons] at fewer
      omega
    (readList? '}' rest.length (readMember? rest.length fun part _ => readValue? part) rest
        (Nat.le_refl _)).map
      fun members => (members.map .object).widen (Nat.le_of_lt step)
  | other => (readScalar? other).map (·.widen (opening ▸ fewer))
  termination_by text.length

/-- Reads a text that holds one value, with blanks around it. -/
def read? (text : List Char) : Option Json :=
  match readValue? text with
  | none => none
  | some value => if (skipBlanks value.rest).isEmpty then some value.value else none

end Json
end DecisionRules
