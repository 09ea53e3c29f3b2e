import DecisionRules.Proofs.Decimal.Bits
import DecisionRules.Proofs.Decimal.Positional

/-!
# Doubles read back from their texts

The finest grid has a point in the neighbourhood of every finite double, so the search for the
fewest digits ends with a point that reads back, and every double that is a number can be read
back from its text.  So can the one that is none.  A double that is nearest to a whole number has a
point on the grid of whole numbers, so that its text is a run of digits.
-/

namespace DecisionRules
namespace Decimal

/-! ## The search succeeds -/

/-- A step of the finest grid is shorter than the units of a double. -/
theorem gridStep_zero_lt : gridStep 0 < tenPow 324 := by decide +kernel

/-- The finest grid has a point in the neighbourhood of every double but zero. -/
theorem exists_nearest_finest {rank : Nat} (positive : 0 < rank) :
    ∃ point, Nearest rank (point * gridStep 0) (2 * tenPow 324) := by
  have small := gridStep_zero_lt
  have stepPositive : 0 < gridStep 0 := Nat.mul_pos (tenPow_pos 0) (twoPow_pos 1075)
  have below := Nat.div_mul_le_self (size rank) (gridStep 0)
  have above := Nat.lt_mul_of_div_lt (Nat.lt_succ_self (size rank / gridStep 0)) stepPositive
  have previous : units (rank - 1) + 1 ≤ units rank := units_lt_units (by omega)
  have scaled := Nat.mul_le_mul_right (2 * tenPow 324) (Nat.add_le_add_right previous (units rank))
  have own := nearest_size rank
  have sizeEq : units rank * (2 * tenPow 324) = size rank := by
    rw [size, Nat.mul_left_comm, Nat.mul_assoc]
  rw [Nat.add_right_comm, Nat.add_mul, Nat.one_mul, Nat.add_mul (units rank), sizeEq] at scaled
  rw [Nat.succ_mul] at above
  have lower : (units (rank - 1) + units rank) * (2 * tenPow 324) <
      2 * (size rank / gridStep 0 * gridStep 0) := by
    omega
  refine ⟨size rank / gridStep 0, Nat.le_of_lt lower, ?_, fun _ => lower, ?_⟩
  · exact Nat.le_trans (Nat.mul_le_mul_left 2 below) own.upper
  · exact fun odd => Nat.lt_of_le_of_lt (Nat.mul_le_mul_left 2 below) (own.upper_of_odd odd)

/-- The shortest digits of a double read back. -/
theorem nearest_shortest {rank : Nat} (positive : 0 < rank) :
    Nearest rank ((shortest rank).1 * gridStep (shortest rank).2) (2 * tenPow 324) := by
  obtain ⟨point, reads⟩ := exists_nearest_finest positive
  exact (coarsestPoint_spec reads (Nat.zero_le _)).2

/-! ## Whole numbers -/

/-- The units of one. -/
theorem units_one : units (1022 * twoPow 52 + twoPow 52) = twoPow 1074 := by
  rw [units_eq (.inr (Nat.le_refl _)) (by decide), ← twoPow_add]

/-- A double that is nearest to a whole number is zero or not less than one. -/
theorem le_units_of_whole
    {rank number : Nat}
    (positive : 0 < rank)
    (reads : Nearest rank (number * twoPow 1074) 1) :
    twoPow 1074 ≤ units rank := by
  rw [← Nat.not_lt, ← units_one]
  intro less
  have before : rank < 1022 * twoPow 52 + twoPow 52 := by
    rw [← Nat.not_le]
    intro beyond
    exact absurd (units_le_units beyond) (Nat.not_le_of_lt less)
  have next : units (rank + 1) ≤ twoPow 1074 := units_one ▸ units_le_units before
  have upper := reads.upper
  have lower := reads.lower
  have own := units_lt_units positive
  rw [units_one] at less
  obtain rfl | nonzero := Nat.eq_zero_or_pos number
  · omega
  · have := Nat.le_mul_of_pos_left (twoPow 1074) nonzero
    omega

/-- The shortest digits of a double that is nearest to a whole number are on the grid of whole
numbers or on a coarser one. -/
theorem whole_shortest
    {rank number : Nat}
    (positive : 0 < rank)
    (reads : Nearest rank (number * twoPow 1074) 1) :
    324 ≤ (shortest rank).2 := by
  have onGrid : Nearest rank (number * gridStep 324) (2 * tenPow 324) := by
    rw [nearest_grid_whole_iff (Nat.le_refl 324)]
    rwa [Nat.sub_self, show tenPow 0 = 1 from rfl, Nat.mul_one]
  have large : tenPow 323 * twoPow 1075 ≤ size rank := by
    calc
      tenPow 323 * twoPow 1075 ≤ tenPow 324 * twoPow 1075 :=
        Nat.mul_le_mul_right _ (tenPow_le_tenPow (by decide))
      _ = 2 * twoPow 1074 * tenPow 324 := by rw [← twoPow_succ, Nat.mul_comm]
      _ ≤ size rank :=
        Nat.mul_le_mul_right _ (Nat.mul_le_mul_left 2 (le_units_of_whole positive reads))
  have within : 323 < (Nat.toDigits 10 (size rank / twoPow 1075)).length :=
    lt_length_toDigits (by decide) ((Nat.le_div_iff_mul_le (twoPow_pos 1075)).mpr large)
  exact (coarsestPoint_spec onGrid within).1

/-! ## Texts -/

/-- A positional numeral begins with a digit. -/
theorem exists_positional_cons (point place : Nat) :
    ∃ first rest, positional point place = first :: rest ∧ first.isDigit = true := by
  have begins (number : Nat) (later : List Char) :
      ∃ first rest,
        Nat.toDigits 10 number ++ later = first :: rest ∧ first.isDigit = true := by
    obtain ⟨first, rest, digits⟩ :=
      List.exists_cons_of_ne_nil (Nat.toDigits_ne_nil (n := number) (b := 10))
    have member : first ∈ Nat.toDigits 10 number := by
      rw [digits]
      exact List.mem_cons_self
    refine ⟨first, rest ++ later, ?_, isDigit_of_mem_toDigits first member⟩
    rw [digits, List.cons_append]
  obtain fractional | whole := Nat.lt_or_ge place 324
  · rw [positional_fraction point fractional]
    exact begins _ _
  · rw [positional, if_pos whole]
    exact begins _ _

/-- The text of a double whose sign is left aside has no sign. -/
theorem read?_magnitudeText {rank : Nat} (number : rank ≤ infinityRank) :
    read? (magnitudeText rank) = some (ofRank false rank) ∧
      read? ('-' :: magnitudeText rank) = some (ofRank true rank) := by
  have signed : read? ('-' :: magnitudeText rank) =
      (readMagnitude? (magnitudeText rank)).map (ofRank true) := rfl
  rw [signed]
  by_cases infinite : rank = infinityRank
  · rw [magnitudeText, if_pos infinite, infinite]
    exact ⟨rfl, rfl⟩
  by_cases zero : rank = 0
  · rw [magnitudeText, if_neg infinite, if_pos zero, zero]
    have decimal : readDecimal? ['0'] = some 0 := by decide
    rw [readMagnitude?_of_isDigit [] rfl, read?_of_isDigit [] rfl, decimal]
    exact ⟨rfl, rfl⟩
  · have positive : 0 < rank := Nat.pos_of_ne_zero zero
    have finite : rank < infinityRank := Nat.lt_of_le_of_ne number infinite
    have decimal := readDecimal?_positional positive finite (nearest_shortest positive)
    rw [magnitudeText, if_neg infinite, if_neg zero]
    obtain ⟨first, rest, begins, digit⟩ :=
      exists_positional_cons (shortest rank).1 (shortest rank).2
    rw [begins] at decimal ⊢
    rw [readMagnitude?_of_isDigit rest digit, read?_of_isDigit rest digit, decimal]
    exact ⟨rfl, rfl⟩

/-- Every double that is a number is denoted by its text. -/
theorem read?_text {value : Float} (number : rank value ≤ infinityRank) :
    read? (text value) = some value := by
  obtain ⟨unsigned, signed⟩ := read?_magnitudeText number
  have made := ofRank_rank value
  rw [text, if_neg (Nat.not_lt_of_le number)]
  cases sign : isNegative value with
  | false =>
      rw [sign] at made
      rw [if_neg Bool.false_ne_true, unsigned, made]
  | true =>
      rw [sign] at made
      rw [if_pos rfl, signed, made]

/-- Every double is denoted by its text. -/
theorem read?_text_eq (value : Float) : read? (text value) = some value := by
  obtain notNumber | number := Nat.lt_or_ge infinityRank (rank value)
  · rw [text, if_pos notNumber, eq_of_infinityRank_lt notNumber]
    rfl
  · exact read?_text number

/-! ### Characters -/

/-- The characters besides digits that doubles are written with. -/
def numeralSigns : List Char := ['-', '.', 'i', 'n', 'f', 'N', 'a']

/-- A positional numeral consists of digits and a point. -/
theorem isDigit_or_eq_of_mem_positional
    {point place : Nat}
    {char : Char}
    (member : char ∈ positional point place) :
    char.isDigit = true ∨ char = '.' := by
  obtain fractional | whole := Nat.lt_or_ge place 324
  · rw [positional_fraction point fractional, List.mem_append, List.mem_cons] at member
    obtain member | same | member := member
    · exact .inl (isDigit_of_mem_toDigits char member)
    · exact .inr same
    · exact .inl (isDigit_of_mem_fractionDigits char member)
  · exact .inl ((isDigits_positional point whole).2 char member)

theorem isDigit_or_mem_of_mem_magnitudeText
    {rank : Nat}
    {char : Char}
    (member : char ∈ magnitudeText rank) :
    char.isDigit = true ∨ char ∈ numeralSigns := by
  rw [magnitudeText] at member
  split at member
  · have listed : (['i', 'n', 'f'].all fun char => decide (char ∈ numeralSigns)) = true := by decide
    exact .inr (of_decide_eq_true (List.all_eq_true.mp listed char member))
  · split at member
    · rw [List.mem_singleton.mp member]
      exact .inl rfl
    · obtain digit | rfl := isDigit_or_eq_of_mem_positional member
      · exact .inl digit
      · exact .inr (by decide)

/-- The text of a double consists of digits and the characters listed. -/
theorem isDigit_or_mem_of_mem_text
    {value : Float}
    {char : Char}
    (member : char ∈ text value) :
    char.isDigit = true ∨ char ∈ numeralSigns := by
  rw [text] at member
  split at member
  · have listed : (['N', 'a', 'N'].all fun char => decide (char ∈ numeralSigns)) = true := by decide
    exact .inr (of_decide_eq_true (List.all_eq_true.mp listed char member))
  · split at member
    · obtain rfl | member := List.mem_cons.mp member
      · exact .inr (by decide)
      · exact isDigit_or_mem_of_mem_magnitudeText member
    · exact isDigit_or_mem_of_mem_magnitudeText member

section Digits

variable
  {digits : List Char}
  {value : Float}
  (nonempty : digits ≠ [])
  (spelled : ∀ char ∈ digits, char.isDigit = true)
  (denotes : read? digits = some value)

include nonempty spelled denotes

/-- The double that a run of digits denotes is denoted by its text. -/
theorem read?_text_of_digits : read? (text value) = some value := by
  rw [read?_digits nonempty spelled, nearestRankOfDigits_whole] at denotes
  obtain rfl := Option.some.inj denotes
  have number := nearestRank_le_infinityRank (digitsValue digits * twoPow 1074) 1
  apply read?_text
  rwa [rank_ofRank false number]

/-- The text of the double that a run of digits denotes is a run of digits too, unless the double
is infinite. -/
theorem text_of_digits :
    value.isInf = true ∧ text value = ['i', 'n', 'f'] ∨
      value.isInf = false ∧ text value ≠ [] ∧ ∀ char ∈ text value, char.isDigit = true := by
  rw [read?_digits nonempty spelled, nearestRankOfDigits_whole] at denotes
  obtain rfl := Option.some.inj denotes
  have number := nearestRank_le_infinityRank (digitsValue digits * twoPow 1074) 1
  have reads (finite : nearestRank (digitsValue digits * twoPow 1074) 1 < infinityRank) :=
    nearest_nearestRank (by decide) finite
  generalize nearestRank (digitsValue digits * twoPow 1074) 1 = rank at number reads ⊢
  have own : text (ofRank false rank) = magnitudeText rank := by
    rw [text, rank_ofRank false number, isNegative_ofRank false number]
    rw [if_neg (Nat.not_lt_of_le number), if_neg Bool.false_ne_true]
  have infinite_iff := isInf_iff (ofRank false rank)
  rw [rank_ofRank false number] at infinite_iff
  rw [own, Bool.eq_false_iff, Ne, infinite_iff]
  by_cases infinite : rank = infinityRank
  · exact .inl ⟨infinite, by rw [magnitudeText, if_pos infinite]⟩
  · refine .inr ⟨infinite, ?_⟩
    by_cases zero : rank = 0
    · rw [magnitudeText, if_neg infinite, if_pos zero]
      refine ⟨List.cons_ne_nil _ _, fun char member => ?_⟩
      rw [List.mem_singleton.mp member]
      rfl
    · have positive : 0 < rank := Nat.pos_of_ne_zero zero
      have whole := whole_shortest positive (reads (Nat.lt_of_le_of_ne number infinite))
      rw [magnitudeText, if_neg infinite, if_neg zero]
      exact isDigits_positional _ whole

end Digits
end Decimal
end DecisionRules
