import DecisionRules.Proofs.Decimal.Digits
import DecisionRules.Proofs.Decimal.Shortest

/-!
# Positional numerals read back

A number of steps of the grid of a place is written without an exponent: as a run of digits that
may end in zeros, or with a point and as many digits after it as the place asks for.  Read as a
numeral it is that many steps of the grid, rounded to a double.
-/

namespace DecisionRules
namespace Decimal

/-! ## The value of digits -/

theorem digitsValue_eq (digits : List Char) : digitsValue digits = Nat.ofDigitChars 10 digits 0 :=
  rfl

theorem digitsValue_toDigits (number : Nat) : digitsValue (Nat.toDigits 10 number) = number := by
  rw [digitsValue_eq, Nat.ofDigitChars_ten_toDigits]

/-- Digits behind others shift them to the left. -/
theorem digitsValue_append (left right : List Char) :
    digitsValue (left ++ right) = tenPow right.length * digitsValue left + digitsValue right := by
  rw [digitsValue_eq, Nat.ofDigitChars_append, Nat.ofDigitChars_eq_ofDigitChars_zero]
  rfl

theorem digitsValue_replicate_zero (count : Nat) :
    digitsValue (List.replicate count '0') = 0 := by
  rw [digitsValue_eq, Nat.ofDigitChars_replicate_zero, Nat.mul_zero]

/-- A number that is not below a power of ten has more digits than the exponent. -/
theorem lt_length_toDigits
    {number places : Nat}
    (positive : 0 < places)
    (large : tenPow places ≤ number) :
    places < (Nat.toDigits 10 number).length := by
  rw [← Nat.not_le, Nat.length_toDigits_le_iff (by decide) positive]
  exact Nat.not_lt_of_le large

theorem isDigit_of_mem_toDigits {number : Nat} :
    ∀ char ∈ Nat.toDigits 10 number, char.isDigit = true :=
  fun _ member => Nat.isDigit_of_mem_toDigits (by decide) (by decide) member

theorem isDigit_of_mem_replicate_zero {count : Nat} :
    ∀ char ∈ List.replicate count '0', char.isDigit = true := by
  intro char member
  rw [List.eq_of_mem_replicate member]
  rfl

/-! ## The rank of digits -/

theorem nearestRank_zero : nearestRank 0 1 = 0 := by decide

/-- The rank of a whole number is the nearest one. -/
theorem nearestRankOfDigits_whole (digits : List Char) :
    nearestRankOfDigits digits 0 = nearestRank (digitsValue digits * twoPow 1074) 1 := by
  simp only [nearestRankOfDigits]
  split
  next zero => rw [zero, Nat.zero_mul, nearestRank_zero]
  next =>
    rw [if_neg (by decide), if_neg (by omega), if_pos (by decide)]
    rw [show tenPow (Int.toNat 0) = 1 from rfl, Nat.mul_one]

/-- The rank of a number with digits after the point is the nearest one. -/
theorem nearestRankOfDigits_fraction
    {digits : List Char}
    {places : Nat}
    (fractional : 0 < places)
    (within : places ≤ digits.length)
    (nonzero : digitsValue digits ≠ 0) :
    nearestRankOfDigits digits (0 - places) =
      nearestRank (digitsValue digits * twoPow 1074) (tenPow places) := by
  simp only [nearestRankOfDigits]
  rw [if_neg nonzero, if_neg (by omega), if_neg (by omega), if_neg (by omega)]
  rw [show (-(0 - (places : Int))).toNat = places by omega]

/-! ## Positional numerals -/

/-- On the grid of whole numbers and on coarser ones, a positional numeral is a run of digits. -/
theorem isDigits_positional
    (point : Nat)
    {place : Nat}
    (whole : 324 ≤ place) :
    positional point place ≠ [] ∧ ∀ char ∈ positional point place, char.isDigit = true := by
  rw [positional, if_pos whole]
  constructor
  · exact List.append_ne_nil_of_left_ne_nil Nat.toDigits_ne_nil _
  · intro char member
    obtain member | member := List.mem_append.mp member
    · exact isDigit_of_mem_toDigits char member
    · exact isDigit_of_mem_replicate_zero char member

/-- The steps of a grid of whole numbers, as units. -/
theorem nearest_grid_whole_iff {rank point place : Nat} (whole : 324 ≤ place) :
    Nearest rank (point * gridStep place) (2 * tenPow 324) ↔
      Nearest rank (point * tenPow (place - 324) * twoPow 1074) 1 := by
  have positive : 0 < 2 * tenPow 324 := Nat.mul_pos (by decide) (tenPow_pos 324)
  have scaled :
      point * gridStep place =
        point * tenPow (place - 324) * twoPow 1074 * (2 * tenPow 324) := by
    have ten : tenPow place = tenPow (place - 324) * tenPow 324 := by
      rw [← tenPow_add, Nat.sub_add_cancel whole]
    have two : twoPow 1075 = 2 * twoPow 1074 := twoPow_succ 1074
    rw [gridStep, ten, two]
    generalize tenPow (place - 324) = factor
    generalize tenPow 324 = scale
    generalize twoPow 1074 = unit
    ac_rfl
  have scaledIff :
      Nearest rank (point * tenPow (place - 324) * twoPow 1074 * (2 * tenPow 324))
          (1 * (2 * tenPow 324)) ↔
        Nearest rank (point * tenPow (place - 324) * twoPow 1074) 1 :=
    nearest_mul_iff positive
  rwa [← scaled, Nat.one_mul] at scaledIff

/-- The steps of a grid of fractions, as a quotient of units. -/
theorem nearest_grid_fraction_iff {rank point place : Nat} (fractional : place ≤ 324) :
    Nearest rank (point * gridStep place) (2 * tenPow 324) ↔
      Nearest rank (point * twoPow 1074) (tenPow (324 - place)) := by
  have positive : 0 < 2 * tenPow place := Nat.mul_pos (by decide) (tenPow_pos place)
  have ten : 2 * tenPow 324 = tenPow (324 - place) * (2 * tenPow place) := by
    rw [Nat.mul_left_comm, ← tenPow_add, Nat.sub_add_cancel fractional]
  have two : twoPow 1075 = 2 * twoPow 1074 := twoPow_succ 1074
  have scaled : point * gridStep place = point * twoPow 1074 * (2 * tenPow place) := by
    rw [gridStep, two]
    generalize twoPow 1074 = unit
    ac_rfl
  rw [scaled, ten, nearest_mul_iff positive]

/-- The digits after the point of a positional numeral. -/
def fractionDigits (point places : Nat) : List Char :=
  List.replicate (places - (Nat.toDigits 10 (point % tenPow places)).length) '0' ++
    Nat.toDigits 10 (point % tenPow places)

theorem length_fractionDigits (point : Nat) {places : Nat} (fractional : 0 < places) :
    (fractionDigits point places).length = places := by
  have within : (Nat.toDigits 10 (point % tenPow places)).length ≤ places :=
    (Nat.length_toDigits_le_iff (by decide) fractional).mpr (Nat.mod_lt point (tenPow_pos places))
  rw [fractionDigits, List.length_append, List.length_replicate, Nat.sub_add_cancel within]

theorem isDigit_of_mem_fractionDigits {point places : Nat} :
    ∀ char ∈ fractionDigits point places, char.isDigit = true := by
  intro char member
  obtain member | member := List.mem_append.mp member
  · exact isDigit_of_mem_replicate_zero char member
  · exact isDigit_of_mem_toDigits char member

/-- The digits before and after the point spell all steps of the grid. -/
theorem digitsValue_fractionDigits (point : Nat) {places : Nat} (fractional : 0 < places) :
    digitsValue (Nat.toDigits 10 (point / tenPow places) ++ fractionDigits point places) =
      point := by
  rw [digitsValue_append, length_fractionDigits point fractional, digitsValue_toDigits,
    fractionDigits, digitsValue_append, digitsValue_replicate_zero, digitsValue_toDigits,
    Nat.mul_zero, Nat.zero_add, Nat.div_add_mod]

/-- On a grid of fractions, a positional numeral has a point. -/
theorem positional_fraction (point : Nat) {place : Nat} (fractional : place < 324) :
    positional point place =
      Nat.toDigits 10 (point / tenPow (324 - place)) ++
        '.' :: fractionDigits point (324 - place) := by
  rw [positional, if_neg (Nat.not_le_of_lt fractional), fractionDigits]
  simp only [List.append_assoc, List.cons_append]

/-- Digits with a point among them are split there. -/
theorem readDecimal?_point
    {whole fraction : List Char}
    (wholeDigits : ∀ char ∈ whole, char.isDigit = true)
    (fractionDigits : ∀ char ∈ fraction, char.isDigit = true)
    (nonempty : whole ++ fraction ≠ []) :
    readDecimal? (whole ++ '.' :: fraction) =
      some (nearestRankOfDigits (whole ++ fraction) (0 - fraction.length)) := by
  have before : (whole ++ '.' :: fraction).takeWhile Char.isDigit = whole := by
    rw [List.takeWhile_append_of_pos wholeDigits]
    simp
  have after : (whole ++ '.' :: fraction).dropWhile Char.isDigit = '.' :: fraction := by
    rw [List.dropWhile_append_of_pos wholeDigits]
    simp
  have taken : fraction.takeWhile Char.isDigit = fraction :=
    List.takeWhile_eq_self_iff.mpr fractionDigits
  have dropped : fraction.dropWhile Char.isDigit = [] :=
    List.dropWhile_eq_nil_iff.mpr fractionDigits
  simp only [readDecimal?, before, after, splitFraction, taken, dropped, nonempty, if_false,
    readExponent?, Option.map_some]

/-- A number of steps of a grid that reads back as a double is written so that it is read as the
rank of the double. -/
theorem readDecimal?_positional
    {rank point place : Nat}
    (positive : 0 < rank)
    (finite : rank < infinityRank)
    (reads : Nearest rank (point * gridStep place) (2 * tenPow 324)) :
    readDecimal? (positional point place) = some rank := by
  obtain fractional | whole := Nat.lt_or_ge place 324
  · have places : 0 < 324 - place := by omega
    have nonzero : point ≠ 0 := by
      rintro rfl
      have lower := reads.lower
      have above := units_lt_units positive
      rw [Nat.zero_mul, Nat.mul_zero, Nat.le_zero, Nat.mul_eq_zero] at lower
      have := tenPow_pos 324
      omega
    rw [positional_fraction point fractional]
    rw [readDecimal?_point isDigit_of_mem_toDigits isDigit_of_mem_fractionDigits
      (List.append_ne_nil_of_left_ne_nil Nat.toDigits_ne_nil _)]
    rw [length_fractionDigits point places, nearestRankOfDigits_fraction places]
    · rw [digitsValue_fractionDigits point places]
      rw [nearest_grid_fraction_iff (Nat.le_of_lt fractional)] at reads
      rw [reads.nearestRank_eq (tenPow_pos _) finite]
    · rw [List.length_append, length_fractionDigits point places]
      exact Nat.le_add_left _ _
    · rw [digitsValue_fractionDigits point places]
      exact nonzero
  · obtain ⟨nonempty, digits⟩ := isDigits_positional point whole
    rw [readDecimal?_digits nonempty digits, nearestRankOfDigits_whole]
    have value : digitsValue (positional point place) = point * tenPow (place - 324) := by
      rw [positional, if_pos whole, digitsValue_append, digitsValue_replicate_zero,
        digitsValue_toDigits, List.length_replicate, Nat.add_zero, Nat.mul_comm]
    rw [nearest_grid_whole_iff whole, ← value] at reads
    rw [reads.nearestRank_eq (by decide) finite]

end Decimal
end DecisionRules
