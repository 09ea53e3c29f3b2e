import DecisionRules.Decimal.Rank

/-!
# Rounding to doubles

A double that is not the last of its spacing is followed by the double that is one spacing
larger, so larger ranks stand for more units, and every number of units lies between two
neighbouring ranks.  A quotient of units is rounded to the rank whose neighbourhood it lies in:
the numbers from the middle below the double to the middle above it, where the middles belong to
the doubles of even rank.  Neighbourhoods do not overlap, so that rounding is described by them
exactly.
-/

namespace DecisionRules
namespace Decimal

theorem twoPow_pos (exponent : Nat) : 0 < twoPow exponent :=
  Nat.pow_pos (by decide)

theorem tenPow_pos (exponent : Nat) : 0 < tenPow exponent :=
  Nat.pow_pos (by decide)

theorem twoPow_add (left right : Nat) : twoPow (left + right) = twoPow left * twoPow right :=
  Nat.pow_add 2 left right

theorem tenPow_add (left right : Nat) : tenPow (left + right) = tenPow left * tenPow right :=
  Nat.pow_add 10 left right

theorem tenPow_le_tenPow {left right : Nat} (less : left ≤ right) : tenPow left ≤ tenPow right :=
  Nat.pow_le_pow_right (by decide) less

theorem twoPow_succ (exponent : Nat) : twoPow (exponent + 1) = 2 * twoPow exponent :=
  Nat.pow_succ'

theorem twoPow_implicit : twoPow 52 = 4503599627370496 := by decide

theorem twoPow_carry : twoPow 53 = 9007199254740992 := by decide

/-! ## Units of ranks -/

/-- Every rank is a spacing and a significand of at most 53 bits, which has all of them unless
the spacing is the least one. -/
theorem exists_significand (rank : Nat) :
    ∃ exponent significand,
      rank = exponent * twoPow 52 + significand ∧
        (exponent = 0 ∨ twoPow 52 ≤ significand) ∧ significand < twoPow 53 := by
  rw [twoPow_implicit, twoPow_carry]
  exact ⟨rank / 4503599627370496 - 1, rank - (rank / 4503599627370496 - 1) * 4503599627370496,
    by omega, by omega, by omega⟩

/-- The units of a rank with a given spacing and significand.  A significand that carries over is
the first one of the next spacing. -/
theorem units_eq
    {exponent significand : Nat}
    (normal : exponent = 0 ∨ twoPow 52 ≤ significand)
    (bounded : significand ≤ twoPow 53) :
    units (exponent * twoPow 52 + significand) = significand * twoPow exponent := by
  by_cases carries : significand = twoPow 53
  · have spaced : spacing (exponent * twoPow 52 + significand) = exponent + 1 := by
      rw [spacing, carries, twoPow_implicit, twoPow_carry]
      omega
    have remaining :
        exponent * twoPow 52 + twoPow 53 - (exponent + 1) * twoPow 52 = twoPow 52 := by
      rw [twoPow_implicit, twoPow_carry]
      omega
    rw [units, spaced, carries, remaining, Nat.add_comm exponent 1, twoPow_add,
      ← Nat.mul_assoc]
    rfl
  · have spaced : spacing (exponent * twoPow 52 + significand) = exponent := by
      rw [twoPow_implicit] at normal
      rw [twoPow_carry] at bounded carries
      rw [spacing, twoPow_implicit]
      omega
    rw [units, spaced, Nat.add_sub_cancel_left]

/-- Larger ranks have more units, one step at a time. -/
theorem units_lt_units_succ (rank : Nat) : units rank < units (rank + 1) := by
  obtain ⟨exponent, significand, rfl, normal, bounded⟩ := exists_significand rank
  have next : exponent = 0 ∨ twoPow 52 ≤ significand + 1 :=
    normal.imp_right fun above => Nat.le_succ_of_le above
  rw [units_eq normal (Nat.le_of_lt bounded), Nat.add_assoc, units_eq next bounded]
  exact Nat.mul_lt_mul_of_pos_right (Nat.lt_succ_self significand) (twoPow_pos exponent)

/-- Larger ranks have more units. -/
theorem units_lt_units {left right : Nat} (less : left < right) : units left < units right := by
  induction less with
  | refl => exact units_lt_units_succ left
  | step _ inductionHypothesis => exact Nat.lt_trans inductionHypothesis (units_lt_units_succ _)

/-- Ranks that are not smaller have no fewer units. -/
theorem units_le_units {left right : Nat} (less : left ≤ right) : units left ≤ units right := by
  obtain less | rfl := Nat.lt_or_eq_of_le less
  · exact Nat.le_of_lt (units_lt_units less)
  · exact Nat.le_refl _

/-- The rank below a number of units has its spacing and its leading bits. -/
theorem rankBelow_bounds (count : Nat) :
    (count.log2 - 52 = 0 ∨ twoPow 52 ≤ count / twoPow (count.log2 - 52)) ∧
      count / twoPow (count.log2 - 52) < twoPow 53 := by
  constructor
  · by_cases small : count.log2 - 52 = 0
    · exact .inl small
    · refine .inr ((Nat.le_div_iff_mul_le (twoPow_pos _)).mpr ?_)
      rw [← twoPow_add, Nat.add_comm, Nat.sub_add_cancel (by omega)]
      exact Nat.log2_self_le (by rintro rfl; exact small rfl)
  · apply (Nat.div_lt_iff_lt_mul (twoPow_pos _)).mpr
    rw [← twoPow_add]
    exact Nat.lt_of_lt_of_le Nat.lt_log2_self (Nat.pow_le_pow_right (by decide) (by omega))

/-- The rank below a number of units has no more units. -/
theorem units_rankBelow_le (count : Nat) : units (rankBelow count) ≤ count := by
  obtain ⟨normal, bounded⟩ := rankBelow_bounds count
  rw [rankBelow, units_eq normal (Nat.le_of_lt bounded)]
  exact Nat.div_mul_le_self count _

/-- The rank after the one below a number of units has more units. -/
theorem lt_units_rankBelow_succ (count : Nat) : count < units (rankBelow count + 1) := by
  obtain ⟨normal, bounded⟩ := rankBelow_bounds count
  have next : count.log2 - 52 = 0 ∨ twoPow 52 ≤ count / twoPow (count.log2 - 52) + 1 :=
    normal.imp_right fun above => Nat.le_succ_of_le above
  rw [rankBelow, Nat.add_assoc, units_eq next bounded]
  exact Nat.lt_mul_of_div_lt (Nat.lt_succ_self _) (twoPow_pos _)

/-! ## The nearest double -/

/-- A quotient of units lies in the neighbourhood of a rank: not below the middle between the
double and the one before it, and not above the middle between the double and the one after it.
The middles only belong to a double of even rank. -/
structure Nearest (rank numerator denominator : Nat) : Prop where
  lower : (units (rank - 1) + units rank) * denominator ≤ 2 * numerator
  upper : 2 * numerator ≤ (units rank + units (rank + 1)) * denominator
  lower_of_odd :
    rank % 2 = 1 → (units (rank - 1) + units rank) * denominator < 2 * numerator
  upper_of_odd :
    rank % 2 = 1 → 2 * numerator < (units rank + units (rank + 1)) * denominator

section Nearest

variable {rank left right numerator denominator : Nat}

/-- The neighbourhood of a rank, without the middles at its ends. -/
theorem Nearest.of_lt
    (lower : (units (rank - 1) + units rank) * denominator < 2 * numerator)
    (upper : 2 * numerator < (units rank + units (rank + 1)) * denominator) :
    Nearest rank numerator denominator :=
  ⟨Nat.le_of_lt lower, Nat.le_of_lt upper, fun _ => lower, fun _ => upper⟩

/-- The neighbourhood of an even rank, with the middles at its ends. -/
theorem Nearest.of_even
    (even : rank % 2 = 0)
    (lower : (units (rank - 1) + units rank) * denominator ≤ 2 * numerator)
    (upper : 2 * numerator ≤ (units rank + units (rank + 1)) * denominator) :
    Nearest rank numerator denominator :=
  ⟨lower, upper, fun odd => by omega, fun odd => by omega⟩

/-- A quotient of units in lowest terms or not. -/
theorem nearest_mul_iff {factor : Nat} (positive : 0 < factor) :
    Nearest rank (numerator * factor) (denominator * factor) ↔
      Nearest rank numerator denominator := by
  constructor
  · rintro ⟨lower, upper, lowerOdd, upperOdd⟩
    simp only [← Nat.mul_assoc, Nat.mul_le_mul_right_iff positive,
      Nat.mul_lt_mul_right positive] at lower upper lowerOdd upperOdd
    exact ⟨lower, upper, lowerOdd, upperOdd⟩
  · rintro ⟨lower, upper, lowerOdd, upperOdd⟩
    refine ⟨?_, ?_, ?_, ?_⟩ <;>
      simpa only [← Nat.mul_assoc, Nat.mul_le_mul_right_iff positive,
        Nat.mul_lt_mul_right positive]

/-- Neighbourhoods follow one another. -/
theorem Nearest.le
    (positive : 0 < denominator)
    (nearestLeft : Nearest left numerator denominator)
    (nearestRight : Nearest right numerator denominator) :
    right ≤ left := by
  rw [← Nat.not_lt]
  intro less
  have lower : units left ≤ units (right - 1) := units_le_units (by omega)
  have upper : units (left + 1) ≤ units right := units_le_units less
  have middles := Nat.mul_le_mul_right denominator (Nat.add_le_add lower upper)
  -- The quotient is the middle between the two doubles, so both ranks are even.
  have same : (units left + units (left + 1)) * denominator =
      (units (right - 1) + units right) * denominator :=
    Nat.le_antisymm middles (Nat.le_trans nearestRight.lower nearestLeft.upper)
  have leftEven : left % 2 = 0 := by
    obtain even | odd := Nat.mod_two_eq_zero_or_one left
    · exact even
    · have strict := Nat.lt_of_lt_of_le (nearestLeft.upper_of_odd odd) middles
      exact absurd nearestRight.lower (Nat.not_le_of_lt strict)
  have rightEven : right % 2 = 0 := by
    obtain even | odd := Nat.mod_two_eq_zero_or_one right
    · exact even
    · have strict := Nat.lt_of_le_of_lt middles (nearestRight.lower_of_odd odd)
      exact absurd nearestLeft.upper (Nat.not_le_of_lt strict)
  have sum := Nat.eq_of_mul_eq_mul_right positive same
  have before : left < right - 1 := by omega
  have := units_lt_units before
  omega

/-- Neighbourhoods do not overlap. -/
theorem Nearest.unique
    (positive : 0 < denominator)
    (nearestLeft : Nearest left numerator denominator)
    (nearestRight : Nearest right numerator denominator) :
    left = right :=
  Nat.le_antisymm (nearestRight.le positive nearestLeft) (nearestLeft.le positive nearestRight)

/-- A quotient between two neighbours that is not above their middle is nearest to the first
one. -/
theorem Nearest.of_le_middle
    {below : Nat}
    (positive : 0 < denominator)
    (above : units below * denominator ≤ numerator)
    (small : 2 * numerator ≤ (units below + units (below + 1)) * denominator)
    (strict : below % 2 = 1 →
      2 * numerator < (units below + units (below + 1)) * denominator) :
    Nearest below numerator denominator := by
  refine ⟨?_, small, ?_, strict⟩
  · have previous : units (below - 1) * denominator ≤ units below * denominator :=
      Nat.mul_le_mul_right denominator (units_le_units (Nat.sub_le below 1))
    rw [Nat.add_mul]
    omega
  · intro odd
    have previous : units (below - 1) * denominator < units below * denominator :=
      Nat.mul_lt_mul_of_pos_right (units_lt_units (by omega)) positive
    rw [Nat.add_mul]
    omega

/-- A quotient between two neighbours that is not below their middle is nearest to the second
one. -/
theorem Nearest.of_middle_le
    {below : Nat}
    (positive : 0 < denominator)
    (beneath : numerator < units (below + 1) * denominator)
    (large : (units below + units (below + 1)) * denominator ≤ 2 * numerator)
    (strict : below % 2 = 0 →
      (units below + units (below + 1)) * denominator < 2 * numerator) :
    Nearest (below + 1) numerator denominator := by
  have next : units (below + 1) * denominator < units (below + 1 + 1) * denominator :=
    Nat.mul_lt_mul_of_pos_right (units_lt_units_succ _) positive
  refine ⟨large, ?_, ?_, ?_⟩
  · rw [Nat.add_mul]
    omega
  · intro odd
    exact strict (by omega)
  · intro _
    rw [Nat.add_mul]
    omega

/-- Rounding finds the neighbourhood of a quotient, except that what is too large is infinite. -/
theorem exists_nearest (numerator : Nat) {denominator : Nat} (positive : 0 < denominator) :
    ∃ nearest,
      Nearest nearest numerator denominator ∧
        nearestRank numerator denominator = min nearest infinityRank := by
  let below := rankBelow (numerator / denominator)
  let middle := (units below + units (below + 1)) * denominator
  have above : units below * denominator ≤ numerator :=
    (Nat.le_div_iff_mul_le positive).mp (units_rankBelow_le _)
  have beneath : numerator < units (below + 1) * denominator :=
    (Nat.div_lt_iff_lt_mul positive).mp (lt_units_rankBelow_succ _)
  have rounded :
      nearestRank numerator denominator =
        min
          (if 2 * numerator < middle then below
          else if middle < 2 * numerator then below + 1
          else if below % 2 = 0 then below
          else below + 1)
          infinityRank :=
    rfl
  obtain smaller | same | larger := Nat.lt_trichotomy (2 * numerator) middle
  · refine ⟨below, .of_le_middle positive above (Nat.le_of_lt smaller) fun _ => smaller, ?_⟩
    rw [rounded, if_pos smaller]
  · obtain even | odd := Nat.mod_two_eq_zero_or_one below
    · refine ⟨below, .of_le_middle positive above (Nat.le_of_eq same) fun odd => by omega, ?_⟩
      rw [rounded, if_neg (by omega), if_neg (by omega), if_pos even]
    · refine ⟨below + 1,
        .of_middle_le positive beneath (Nat.le_of_eq same.symm) fun even => by omega, ?_⟩
      rw [rounded, if_neg (by omega), if_neg (by omega), if_neg (by omega)]
  · refine ⟨below + 1,
      .of_middle_le positive beneath (Nat.le_of_lt larger) fun _ => larger, ?_⟩
    rw [rounded, if_neg (by omega), if_pos larger]

/-- What is rounded to a finite double lies in its neighbourhood. -/
theorem nearest_nearestRank
    (positive : 0 < denominator)
    (finite : nearestRank numerator denominator < infinityRank) :
    Nearest (nearestRank numerator denominator) numerator denominator := by
  obtain ⟨nearest, found, same⟩ := exists_nearest numerator positive
  have : nearestRank numerator denominator = nearest := by omega
  rwa [this]

/-- What lies in the neighbourhood of a finite double is rounded to it. -/
theorem Nearest.nearestRank_eq
    (nearestHere : Nearest rank numerator denominator)
    (positive : 0 < denominator)
    (finite : rank < infinityRank) :
    nearestRank numerator denominator = rank := by
  obtain ⟨nearest, found, same⟩ := exists_nearest numerator positive
  rw [same, found.unique positive nearestHere]
  omega

end Nearest

end Decimal
end DecisionRules
