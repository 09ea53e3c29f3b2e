import DecisionRules.Text.LetterCase

/-!
# Letter case of characters

Letters and digits are known by their numbers, and so is what happens to the letter case.
-/

namespace DecisionRules

/-- The capital letters stand between their first and their last one. -/
theorem capital_iff_toNat (char : Char) :
    char.val ≥ 'A'.val ∧ char.val ≤ 'Z'.val ↔ 65 ≤ char.toNat ∧ char.toNat ≤ 90 := by
  rw [ge_iff_le, UInt32.le_iff_toNat_le, UInt32.le_iff_toNat_le]
  rfl

theorem isUpper_iff_toNat (char : Char) :
    char.isUpper = true ↔ 65 ≤ char.toNat ∧ char.toNat ≤ 90 :=
  decide_eq_true_iff.trans (capital_iff_toNat char)

theorem isLower_iff_toNat (char : Char) :
    char.isLower = true ↔ 97 ≤ char.toNat ∧ char.toNat ≤ 122 := by
  change (decide (char.val ≥ 'a'.val) && decide (char.val ≤ 'z'.val)) = true ↔ _
  rw [Bool.and_eq_true, decide_eq_true_iff, decide_eq_true_iff]
  rw [ge_iff_le, UInt32.le_iff_toNat_le, UInt32.le_iff_toNat_le]
  rfl

theorem isAlpha_iff_toNat (char : Char) :
    char.isAlpha = true ↔
      65 ≤ char.toNat ∧ char.toNat ≤ 90 ∨ 97 ≤ char.toNat ∧ char.toNat ≤ 122 := by
  change (char.isUpper || char.isLower) = true ↔ _
  rw [Bool.or_eq_true, isUpper_iff_toNat, isLower_iff_toNat]

theorem isDigit_iff_toNat (char : Char) :
    char.isDigit = true ↔ 48 ≤ char.toNat ∧ char.toNat ≤ 57 := by
  simp [Char.isDigit_iff_toNat]

theorem eq_underscore_iff_toNat (char : Char) : char = '_' ↔ char.toNat = 95 :=
  (Char.toNat_inj (d := '_')).symm

/-- A small letter is 32 places after the capital one. -/
theorem toNat_toLower (char : Char) :
    char.toLower.toNat =
      if 65 ≤ char.toNat ∧ char.toNat ≤ 90 then char.toNat + 32 else char.toNat := by
  simp only [← capital_iff_toNat]
  split
  next capital =>
    have lower : char.toLower.toNat = (char.val + ('a'.val - 'A'.val)).toNat :=
      congrArg Char.toNat (dif_pos capital)
    rw [lower, UInt32.toNat_add]
    have small := ((capital_iff_toNat char).mp capital).2
    change (char.toNat + 32) % 4294967296 = char.toNat + 32
    omega
  next other => exact congrArg Char.toNat (dif_neg other)

/-- Only letters have a letter case, and they stay letters in any. -/
theorem toLower_cases (char : Char) :
    char.toLower = char ∨ char.isAlpha = true ∧ char.toLower.isAlpha = true := by
  by_cases letter : char.isAlpha = true
  · refine .inr ⟨letter, ?_⟩
    rw [isAlpha_iff_toNat] at letter ⊢
    rw [toNat_toLower]
    split <;> omega
  · rw [isAlpha_iff_toNat] at letter
    rw [← Char.toNat_inj, toNat_toLower, if_neg (by omega)]
    exact .inl rfl

/-- What is the same for all letters does not depend on the letter case. -/
theorem apply_toLower
    {form : Char → α}
    {value : α}
    (letters : ∀ char, char.isAlpha = true → form char = value)
    (char : Char) :
    form char.toLower = form char := by
  obtain same | ⟨letter, lower⟩ := toLower_cases char
  · rw [same]
  · rw [letters _ letter, letters _ lower]

/-- A sign that is no letter comes from itself only. -/
theorem toLower_eq_iff {sign : Char} (noLetter : sign.isAlpha = false) (char : Char) :
    char.toLower = sign ↔ char = sign := by
  obtain same | ⟨letter, lower⟩ := toLower_cases char
  · rw [same]
  · constructor
    · rintro rfl
      rw [lower] at noLetter
      cases noLetter
    · rintro rfl
      rw [letter] at noLetter
      cases noLetter

/-- A digit has no letter case. -/
theorem toLower_of_isDigit {char : Char} (digit : char.isDigit = true) : char.toLower = char := by
  rw [isDigit_iff_toNat] at digit
  rw [← Char.toNat_inj, toNat_toLower]
  split <;> omega

end DecisionRules
