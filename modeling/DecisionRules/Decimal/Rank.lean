/-!
# Doubles in order of size

The non-negative doubles in order of size are numbered from zero.  The number of a double is
its *rank*, and it is also what its bits spell; the rank after the largest finite double is
that of infinity, and all ranks above it are not numbers.

A finite double is a whole number of times the least positive one, `2 ^ (-1074)`, and `units`
is that number.  Rounding is then a matter of natural numbers: `rankBelow` is the last rank
that does not exceed a number of units, and `nearestRank` rounds a quotient of units.
-/

namespace DecisionRules
namespace Decimal

/-- A power of two. -/
def twoPow (exponent : Nat) : Nat :=
  Nat.pow 2 exponent

/-- A power of ten. -/
def tenPow (exponent : Nat) : Nat :=
  Nat.pow 10 exponent

/-- The rank of infinity. -/
def infinityRank : Nat := 2047 * twoPow 52

/-- Doubles of this rank are `2 ^ spacing` units apart. -/
def spacing (rank : Nat) : Nat :=
  rank / twoPow 52 - 1

/-- The size of the double of a rank, in units of the least positive double. -/
def units (rank : Nat) : Nat :=
  (rank - spacing rank * twoPow 52) * twoPow (spacing rank)

/-- The rank of the largest double that has at most `count` units. -/
def rankBelow (count : Nat) : Nat :=
  (count.log2 - 52) * twoPow 52 + count / twoPow (count.log2 - 52)

/-- The rank of the double nearest to `numerator / denominator` units.  Halfway between two
doubles the even rank is taken, and infinity stands for all that is too large. -/
def nearestRank (numerator denominator : Nat) : Nat :=
  let below := rankBelow (numerator / denominator)
  let middle := (units below + units (below + 1)) * denominator
  let nearest :=
    if 2 * numerator < middle then below
    else if middle < 2 * numerator then below + 1
    else if below % 2 = 0 then below
    else below + 1
  min nearest infinityRank

/-- The rank of a double, its sign left aside. -/
def rank (value : Float) : Nat :=
  value.toBits.toNat % twoPow 63

/-- Whether the sign of a double is negative; zero has a sign too. -/
def isNegative (value : Float) : Bool :=
  twoPow 63 ≤ value.toBits.toNat

/-- The double with a sign and a rank. -/
def ofRank (negative : Bool) (rank : Nat) : Float :=
  Float.ofBits (UInt64.ofNat (if negative then twoPow 63 + rank else rank))

@[simp] theorem units_zero : units 0 = 0 := by decide

@[simp] theorem rankBelow_zero : rankBelow 0 = 0 := by decide

theorem nearestRank_le_infinityRank (numerator denominator : Nat) :
    nearestRank numerator denominator ≤ infinityRank :=
  Nat.min_le_right ..

end Decimal
end DecisionRules
