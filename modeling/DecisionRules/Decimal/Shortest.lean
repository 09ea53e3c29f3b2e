import DecisionRules.Decimal.Rank

/-!
# The fewest digits of a double

A double is written with the fewest decimal digits that read back as the same double.  Among
equally short ones the nearest to the double is taken, and of two equally near ones the larger.

All numbers of this module are natural.  The grid of place `place` holds the multiples of
`10 ^ (place - 324)`, and sizes are counted in the unit `2 ^ (-1075) * 10 ^ (-324)`, in which
doubles, the midpoints between them and all grids are whole.  Fewest digits means the coarsest
grid that has a point among the numbers that read back.
-/

namespace DecisionRules
namespace Decimal

/-- The size of a double. -/
def size (rank : Nat) : Nat :=
  2 * units rank * tenPow 324

/-- The distance of two neighbours on the grid of a place. -/
def gridStep (place : Nat) : Nat :=
  tenPow place * twoPow 1075

/-- Whether a number is nearer to the double of a rank than to any other double.  The midpoint
of two doubles belongs to the one of even rank. -/
def readsBack (rank point : Nat) : Bool :=
  let lower := (units (rank - 1) + units rank) * tenPow 324
  let upper := (units rank + units (rank + 1)) * tenPow 324
  if rank % 2 = 0 then lower ≤ point && point ≤ upper else lower < point && point < upper

/-- The point of a grid that reads back as a double and is nearest to it, counted in steps of
the grid. -/
def gridPoint? (rank place : Nat) : Option Nat :=
  let step := gridStep place
  let below := size rank / step
  let above := below + 1
  if readsBack rank (below * step) then
    if readsBack rank (above * step) && above * step - size rank ≤ size rank - below * step then
      some above
    else
      some below
  else if readsBack rank (above * step) then
    some above
  else
    none

/-- The point that the coarsest grid up to a place has for a double, with its place. -/
def coarsestPoint (rank : Nat) : Nat → Nat × Nat
  | 0 => ((gridPoint? rank 0).getD 0, 0)
  | place + 1 =>
    match gridPoint? rank (place + 1) with
    | some point => (point, place + 1)
    | none => coarsestPoint rank place

/-- The shortest digits of a positive finite double, as a number, and the place of the last
digit.  Grids with a larger step than the double itself need not be searched beyond the next
power of ten. -/
def shortest (rank : Nat) : Nat × Nat :=
  coarsestPoint rank (Nat.toDigits 10 (size rank / twoPow 1075)).length

/-- A number of steps of the grid of a place, written without an exponent. -/
def positional (point place : Nat) : List Char :=
  if 324 ≤ place then
    Nat.toDigits 10 point ++ List.replicate (place - 324) '0'
  else
    let fraction := Nat.toDigits 10 (point % tenPow (324 - place))
    Nat.toDigits 10 (point / tenPow (324 - place)) ++
      '.' :: List.replicate (324 - place - fraction.length) '0' ++ fraction

/-- The text of a double whose sign is left aside. -/
def magnitudeText (rank : Nat) : List Char :=
  if rank = infinityRank then ['i', 'n', 'f']
  else if rank = 0 then ['0']
  else positional (shortest rank).1 (shortest rank).2

/-- The text of a double: its shortest digits without an exponent.  A minus sign stands before
all that is negative, zero included, and what is not a number has no sign. -/
def text (value : Float) : List Char :=
  if infinityRank < rank value then ['N', 'a', 'N']
  else if isNegative value then '-' :: magnitudeText (rank value)
  else magnitudeText (rank value)

end Decimal
end DecisionRules
