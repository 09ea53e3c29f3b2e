import DecisionRules.Proofs.Decimal.Rounding
import DecisionRules.Decimal.Shortest

/-!
# The fewest digits read back

The numbers that read back as a double are its neighbourhood.  The double itself lies in it, so a
grid with any point in the neighbourhood has one next to the double, which is where the search
looks.  Hence the search finds a point that reads back, and no grid with such a point is coarser
than the one it stops at.
-/

namespace DecisionRules
namespace Decimal

/-- The number that reads back are the neighbourhood of the double. -/
theorem readsBack_iff (rank point : Nat) :
    readsBack rank point = true ↔ Nearest rank point (2 * tenPow 324) := by
  have lower := Nat.mul_left_comm (units (rank - 1) + units rank) 2 (tenPow 324)
  have upper := Nat.mul_left_comm (units rank + units (rank + 1)) 2 (tenPow 324)
  unfold readsBack
  split
  next even =>
    simp only [Bool.and_eq_true, decide_eq_true_eq]
    constructor
    · rintro ⟨above, beneath⟩
      exact .of_even even (by omega) (by omega)
    · intro nearest
      have := nearest.lower
      have := nearest.upper
      omega
  next odd =>
    simp only [Bool.and_eq_true, decide_eq_true_eq]
    constructor
    · rintro ⟨above, beneath⟩
      exact .of_lt (by omega) (by omega)
    · intro nearest
      have := nearest.lower_of_odd (by omega)
      have := nearest.upper_of_odd (by omega)
      omega

/-- A double lies in its own neighbourhood. -/
theorem nearest_units (rank : Nat) : Nearest rank (units rank) 1 := by
  have next := units_lt_units_succ rank
  have previous : units (rank - 1) ≤ units rank := units_le_units (Nat.sub_le rank 1)
  have previousOdd : rank % 2 = 1 → units (rank - 1) < units rank :=
    fun odd => units_lt_units (by omega)
  exact ⟨by omega, by omega, fun odd => by have := previousOdd odd; omega, fun _ => by omega⟩

/-- The size of a double lies in its neighbourhood. -/
theorem nearest_size (rank : Nat) : Nearest rank (size rank) (2 * tenPow 324) := by
  have positive : 0 < 2 * tenPow 324 := Nat.mul_pos (by decide) (tenPow_pos 324)
  have scaled := (nearest_mul_iff positive).mpr (nearest_units rank)
  rwa [Nat.one_mul, Nat.mul_left_comm, ← Nat.mul_assoc] at scaled

/-- What lies between two numbers of a neighbourhood belongs to it. -/
theorem Nearest.of_between
    {rank lower middle upper denominator : Nat}
    (nearestLower : Nearest rank lower denominator)
    (nearestUpper : Nearest rank upper denominator)
    (above : lower ≤ middle)
    (beneath : middle ≤ upper) :
    Nearest rank middle denominator := by
  refine ⟨?_, ?_, ?_, ?_⟩
  · have := nearestLower.lower
    omega
  · have := nearestUpper.upper
    omega
  · intro odd
    have := nearestLower.lower_of_odd odd
    omega
  · intro odd
    have := nearestUpper.upper_of_odd odd
    omega

/-- The point that is taken from a grid reads back. -/
theorem nearest_of_gridPoint?
    {rank place point : Nat}
    (found : gridPoint? rank place = some point) :
    Nearest rank (point * gridStep place) (2 * tenPow 324) := by
  rw [← readsBack_iff]
  simp only [gridPoint?] at found
  split at found
  next below =>
    split at found
    next above =>
      rw [Bool.and_eq_true] at above
      rw [← Option.some.inj found]
      exact above.1
    next =>
      rw [← Option.some.inj found]
      exact below
  next =>
    split at found
    next above =>
      rw [← Option.some.inj found]
      exact above
    next => cases found

/-- A point of a grid that reads back is not beyond both neighbours of the double on the grid. -/
theorem exists_gridPoint?
    {rank place point : Nat}
    (reads : Nearest rank (point * gridStep place) (2 * tenPow 324)) :
    ∃ found, gridPoint? rank place = some found := by
  have positive : 0 < gridStep place := Nat.mul_pos (tenPow_pos place) (twoPow_pos 1075)
  let below := size rank / gridStep place
  have either :
      readsBack rank (below * gridStep place) = true ∨
        readsBack rank ((below + 1) * gridStep place) = true := by
    rw [readsBack_iff, readsBack_iff]
    obtain less | more := Nat.lt_or_ge below point
    · refine .inr ((nearest_size rank).of_between reads ?_ ?_)
      · exact Nat.le_of_lt (Nat.lt_mul_of_div_lt (Nat.lt_succ_self below) positive)
      · exact Nat.mul_le_mul_right _ less
    · refine .inl (reads.of_between (nearest_size rank) ?_ ?_)
      · exact Nat.mul_le_mul_right _ more
      · exact Nat.div_mul_le_self _ _
  simp only [gridPoint?]
  split
  next => split <;> exact ⟨_, rfl⟩
  next notBelow =>
    rw [if_pos (either.resolve_left notBelow)]
    exact ⟨_, rfl⟩

/-- The search finds a point that reads back on no finer a grid than any that has one. -/
theorem coarsestPoint_spec
    {rank place point top : Nat}
    (reads : Nearest rank (point * gridStep place) (2 * tenPow 324))
    (within : place ≤ top) :
    place ≤ (coarsestPoint rank top).2 ∧
      Nearest rank ((coarsestPoint rank top).1 * gridStep (coarsestPoint rank top).2)
        (2 * tenPow 324) := by
  induction top with
  | zero =>
      obtain rfl : place = 0 := by omega
      obtain ⟨found, same⟩ := exists_gridPoint? reads
      rw [coarsestPoint, same]
      exact ⟨Nat.le_refl 0, nearest_of_gridPoint? same⟩
  | succ top inductionHypothesis =>
      rw [coarsestPoint]
      cases same : gridPoint? rank (top + 1) with
      | some found => exact ⟨within, nearest_of_gridPoint? same⟩
      | none =>
          apply inductionHypothesis
          obtain less | rfl := Nat.lt_or_eq_of_le within
          · omega
          · obtain ⟨found, other⟩ := exists_gridPoint? reads
            rw [same] at other
            cases other

end Decimal
end DecisionRules
