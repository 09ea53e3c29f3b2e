import DecisionRules.Decimal.Numeral
import DecisionRules.Proofs.Text.LetterCase
import Mathlib.Data.List.TakeWhile

/-!
# Runs of digits

A run of digits is the simplest numeral: it has no sign, no point and no exponent, and it denotes
the double nearest to the number that its digits spell.
-/

namespace DecisionRules
namespace Decimal

/-- A numeral that begins with a digit is not a word. -/
theorem readMagnitude?_of_isDigit
    {first : Char}
    (rest : List Char)
    (digit : first.isDigit = true) :
    readMagnitude? (first :: rest) = readDecimal? (first :: rest) := by
  have differs (letter : Char) (letters : List Char) (notDigit : letter.isDigit = false) :
      String.ofList ((first :: rest).map Char.toLower) ≠ String.ofList (letter :: letters) := by
    intro same
    have heads := List.head_eq_of_cons_eq (String.ofList_inj.mp same)
    rw [toLower_of_isDigit digit] at heads
    rw [heads, notDigit] at digit
    cases digit
  have notInf := differs 'i' ['n', 'f'] rfl
  have notInfinity := differs 'i' ['n', 'f', 'i', 'n', 'i', 't', 'y'] rfl
  have notNan := differs 'n' ['a', 'n'] rfl
  unfold readMagnitude?
  rw [if_neg (not_or.mpr ⟨notInf, notInfinity⟩), if_neg notNan]

/-- A numeral that begins with a digit has no sign. -/
theorem read?_of_isDigit
    {first : Char}
    (rest : List Char)
    (digit : first.isDigit = true) :
    read? (first :: rest) = (readDecimal? (first :: rest)).map (ofRank false) := by
  rw [← readMagnitude?_of_isDigit rest digit]
  unfold read?
  split
  next same =>
    rw [List.head_eq_of_cons_eq same] at digit
    cases digit
  next same =>
    rw [List.head_eq_of_cons_eq same] at digit
    cases digit
  next => rfl

section Digits

variable
  {digits : List Char}
  (nonempty : digits ≠ [])
  (spelled : ∀ char ∈ digits, char.isDigit = true)

include nonempty spelled

/-- A run of digits is a numeral without a point and an exponent. -/
theorem readDecimal?_digits : readDecimal? digits = some (nearestRankOfDigits digits 0) := by
  have whole : digits.takeWhile Char.isDigit = digits := List.takeWhile_eq_self_iff.mpr spelled
  have rest : digits.dropWhile Char.isDigit = [] := List.dropWhile_eq_nil_iff.mpr spelled
  simp only [readDecimal?, whole, rest, splitFraction, readExponent?, List.append_nil, nonempty,
    if_false, Option.map_some, List.length_nil]
  rfl

/-- A run of digits denotes the nearest double. -/
theorem read?_digits : read? digits = some (ofRank false (nearestRankOfDigits digits 0)) := by
  have decimal := readDecimal?_digits nonempty spelled
  obtain ⟨first, rest, rfl⟩ := List.exists_cons_of_ne_nil nonempty
  rw [read?_of_isDigit rest (spelled first List.mem_cons_self), decimal, Option.map_some]

end Digits
end Decimal
end DecisionRules
