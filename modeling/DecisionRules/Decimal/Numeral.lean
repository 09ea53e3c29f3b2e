import DecisionRules.Decimal.Rank

/-!
# Numerals

A numeral is an optional sign followed by one of the words `inf`, `infinity` and `nan`, in any
letter case, or by decimal digits with an optional point and an optional exponent.  It denotes
the double nearest to its value.
-/

namespace DecisionRules
namespace Decimal

/-- The value of a run of decimal digits. -/
def digitsValue (digits : List Char) : Nat :=
  digits.foldl (fun value digit => 10 * value + (digit.toNat - '0'.toNat)) 0

/-- The rank of the double nearest to a whole number times a power of ten, the number written
with the given digits.  Powers of ten far outside the range of doubles are not computed. -/
def nearestRankOfDigits (digits : List Char) (exponent : Int) : Nat :=
  let significand := digitsValue digits
  if significand = 0 then 0
  else if 310 ≤ exponent then infinityRank
  else if exponent + digits.length < -330 then 0
  else if 0 ≤ exponent then nearestRank (significand * tenPow exponent.toNat * twoPow 1074) 1
  else nearestRank (significand * twoPow 1074) (tenPow (-exponent).toNat)

/-- The number that an optional sign and at least one digit denote. -/
def readInteger? (text : List Char) : Option Int :=
  let magnitude? (digits : List Char) : Option Nat :=
    if digits ≠ [] ∧ digits.all Char.isDigit then some (digitsValue digits) else none
  match text with
  | '+' :: digits => (magnitude? digits).map Int.ofNat
  | '-' :: digits => (magnitude? digits).map fun value => -Int.ofNat value
  | digits => (magnitude? digits).map Int.ofNat

/-- The power of ten that the end of a numeral asks for; there need not be one. -/
def readExponent? (text : List Char) : Option Int :=
  match text with
  | [] => some 0
  | mark :: digits => if mark = 'e' ∨ mark = 'E' then readInteger? digits else none

/-- The digits after the point of a numeral, if it has a point, and what follows them. -/
def splitFraction (text : List Char) : List Char × List Char :=
  match text with
  | '.' :: rest => (rest.takeWhile Char.isDigit, rest.dropWhile Char.isDigit)
  | rest => ([], rest)

/-- The rank that digits with an optional point and an optional exponent denote. -/
def readDecimal? (text : List Char) : Option Nat :=
  let whole := text.takeWhile Char.isDigit
  let (fraction, rest) := splitFraction (text.dropWhile Char.isDigit)
  if whole ++ fraction = [] then none
  else
    (readExponent? rest).map fun exponent =>
      nearestRankOfDigits (whole ++ fraction) (exponent - fraction.length)

/-- The rank that a numeral without a sign denotes. -/
def readMagnitude? (text : List Char) : Option Nat :=
  let word := String.ofList (text.map Char.toLower)
  if word = "inf" ∨ word = "infinity" then some infinityRank
  else if word = "nan" then some (infinityRank + twoPow 51)
  else readDecimal? text

/-- The double that a numeral denotes; other texts are refused. -/
def read? (text : List Char) : Option Float :=
  match text with
  | '+' :: rest => (readMagnitude? rest).map (ofRank false)
  | '-' :: rest => (readMagnitude? rest).map (ofRank true)
  | rest => (readMagnitude? rest).map (ofRank false)

end Decimal
end DecisionRules
