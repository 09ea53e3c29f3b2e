import Mathlib
import DecisionRules.Proofs.Decimal.Rounding

/-!
# Bits of doubles

A double is a pattern of bits, except that there is only one that is not a number.  So a sign and
a rank up to that of infinity can be read off the double that they make, and any higher rank belongs
to the same double.
-/

namespace DecisionRules
namespace Decimal

open Float.Model Float.Model.UnpackedFloat

theorem twoPow_sign : twoPow 63 = 9223372036854775808 := by decide

/-- The exponent of a pattern of bits. -/
theorem toNat_unpackExponent (bits : BitVec Format.binary64.numBits) :
    (unpackExponent bits).toNat = bits.toNat / twoPow 52 % 2048 := by
  rw [unpackExponent, BitVec.toNat_cast, BitVec.extractLsb_toNat, Nat.shiftRight_eq_div_pow]
  rfl

/-- The mantissa of a pattern of bits. -/
theorem toNat_unpackMantissa (bits : BitVec Format.binary64.numBits) :
    (unpackMantissa bits).toNat = bits.toNat % twoPow 52 := by
  rw [unpackMantissa, BitVec.toNat_cast, BitVec.extractLsb_toNat, Nat.shiftRight_zero]
  rfl

/-- The bits of a double that was made from the bits of a number. -/
theorem toBits_ofBits
    {bits : UInt64}
    (number : bits.toNat % twoPow 63 ≤ infinityRank) :
    (Float.ofBits bits).toBits = bits := by
  have valid : Format.binary64.Valid bits.toBitVec := by
    constructor
    intro special notNumber
    have exponent := toNat_unpackExponent bits.toBitVec
    rw [special] at exponent
    refine absurd (BitVec.eq_of_toNat_eq ?_) notNumber
    rw [toNat_unpackMantissa]
    change 2047 = bits.toNat / twoPow 52 % 2048 at exponent
    change bits.toNat % twoPow 52 = 0
    rw [infinityRank, twoPow_sign, twoPow_implicit] at number
    rw [twoPow_implicit] at exponent ⊢
    omega
  change UInt64.ofBitVec (UnpackedFloat.pack Format.binary64
    (UnpackedFloat.unpack Format.binary64 bits.toBitVec)) = bits
  rw [pack_unpack_of_valid valid]

/-- The infinite patterns of bits have all bits of the exponent and none of the mantissa. -/
theorem isInf_unpack_iff (bits : BitVec Format.binary64.numBits) :
    (UnpackedFloat.unpack Format.binary64 bits).isInf = true ↔
      (unpackExponent bits).toNat = 2047 ∧ (unpackMantissa bits).toNat = 0 := by
  have special : unpackExponent bits = -1#_ ↔ (unpackExponent bits).toNat = 2047 :=
    BitVec.toNat_inj.symm
  have zero : unpackMantissa bits = 0#_ ↔ (unpackMantissa bits).toNat = 0 :=
    BitVec.toNat_inj.symm
  rw [← special, ← zero, UnpackedFloat.unpack]
  split
  next infinite =>
    split
    next none => exact ⟨fun _ => ⟨infinite, none⟩, fun _ => rfl⟩
    next notNumber =>
      refine ⟨fun holds => ?_, fun both => absurd both.2 notNumber⟩
      cases holds
  next finite =>
    refine ⟨fun holds => ?_, fun both => absurd both.1 finite⟩
    split at holds
    next =>
      split at holds
      next => cases holds
      next => cases holds
    next => cases holds

/-- The infinite doubles have the rank of infinity. -/
theorem isInf_iff (value : Float) : value.isInf = true ↔ rank value = infinityRank := by
  have bounded : value.toBits.toNat < 18446744073709551616 := value.toBits.toNat_lt
  have infinite := isInf_unpack_iff value.toBits.toBitVec
  rw [toNat_unpackExponent, toNat_unpackMantissa] at infinite
  change value.isInf = true ↔ value.toBits.toNat / twoPow 52 % 2048 = 2047 ∧
    value.toBits.toNat % twoPow 52 = 0 at infinite
  rw [infinite, rank, infinityRank, twoPow_sign, twoPow_implicit]
  omega

section Rank

variable (negative : Bool) {rank : Nat} (number : rank ≤ infinityRank)

include number

/-- The bits of a double made from a sign and a rank. -/
theorem toNat_toBits_ofRank :
    (ofRank negative rank).toBits.toNat = if negative then twoPow 63 + rank else rank := by
  rw [infinityRank, twoPow_implicit] at number
  have bits :
      (UInt64.ofNat (if negative then twoPow 63 + rank else rank)).toNat =
        if negative then twoPow 63 + rank else rank := by
    apply UInt64.toNat_ofNat_of_lt'
    change _ < 18446744073709551616
    rw [twoPow_sign]
    split <;> omega
  rw [ofRank, toBits_ofBits, bits]
  rw [bits, infinityRank, twoPow_implicit, twoPow_sign]
  split <;> omega

/-- The rank of a double made from a sign and a rank. -/
theorem rank_ofRank : Decimal.rank (ofRank negative rank) = rank := by
  rw [Decimal.rank, toNat_toBits_ofRank negative number]
  rw [infinityRank, twoPow_implicit] at number
  rw [twoPow_sign]
  split <;> omega

/-- The sign of a double made from a sign and a rank. -/
theorem isNegative_ofRank : isNegative (ofRank negative rank) = negative := by
  rw [isNegative, toNat_toBits_ofRank negative number]
  rw [infinityRank, twoPow_implicit] at number
  rw [twoPow_sign]
  cases negative with
  | false => exact decide_eq_false (by simp only [Bool.false_eq_true, if_false]; omega)
  | true => exact decide_eq_true (by simp only [if_true]; omega)

end Rank

/-- A double is made from its sign and its rank. -/
theorem ofRank_rank (value : Float) : ofRank (isNegative value) (rank value) = value := by
  have bits : (if isNegative value then twoPow 63 + rank value else rank value) =
      value.toBits.toNat := by
    have bounded : value.toBits.toNat < 18446744073709551616 := value.toBits.toNat_lt
    rw [isNegative, rank, twoPow_sign]
    simp only [decide_eq_true_eq]
    split <;> omega
  rw [ofRank, bits, UInt64.ofNat_toNat, Float.ofBits_toBits]

/-- There is only one double that is not a number. -/
theorem eq_of_infinityRank_lt {value : Float} (notNumber : infinityRank < rank value) :
    value = ofRank false (infinityRank + twoPow 51) := by
  have bounded : value.toBits.toNat < 18446744073709551616 := value.toBits.toNat_lt
  rw [rank, infinityRank, twoPow_sign, twoPow_implicit] at notNumber
  let bits : BitVec Format.binary64.numBits := value.toBits.toBitVec
  have exponent : unpackExponent bits = -1#_ := by
    apply BitVec.eq_of_toNat_eq
    rw [toNat_unpackExponent]
    change value.toBits.toNat / twoPow 52 % 2048 = 2047
    rw [twoPow_implicit]
    omega
  have mantissa : unpackMantissa bits ≠ 0#_ := by
    intro zero
    have none := toNat_unpackMantissa bits
    rw [zero] at none
    change 0 = value.toBits.toNat % twoPow 52 at none
    rw [twoPow_implicit] at none
    omega
  have packed : value.toBits = UInt64.ofBitVec (packedNaN Format.binary64) :=
    UInt64.toBitVec_inj.mp (value.toModel.valid.eq_packedNaN exponent mantissa)
  have made : UInt64.ofBitVec (packedNaN Format.binary64) =
      UInt64.ofNat (infinityRank + twoPow 51) := by
    decide +kernel
  rw [← Float.ofBits_toBits value, packed, made]
  rfl

end Decimal
end DecisionRules
