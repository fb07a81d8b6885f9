import Mathlib

/-! Patterns of any binary format, taken apart into sign, exponent and mantissa, and put together
again. -/

namespace RangeRecall

namespace Fields

open Float.Model (Format UnpackedFloat)
open Float.Model.UnpackedFloat (unpackExponent unpackMantissa unpackSign)

variable (format : Format)

theorem toNat_exponent (bits : BitVec format.numBits) :
    (unpackExponent bits).toNat =
      bits.toNat / 2 ^ format.mantissaBitsWithoutImplicit % 2 ^ format.exponentBits := by
  rw [UnpackedFloat.unpackExponent_def]
  simp [Nat.shiftRight_eq_div_pow]

theorem toNat_mantissa (bits : BitVec format.numBits) :
    (unpackMantissa bits).toNat = bits.toNat % 2 ^ format.mantissaBitsWithoutImplicit := by
  rw [UnpackedFloat.unpackMantissa_def]
  simp

theorem toNat_sign (bits : BitVec format.numBits) :
    (unpackSign bits).toNat =
      bits.toNat / 2 ^ (format.mantissaBitsWithoutImplicit + format.exponentBits) % 2 := by
  rw [UnpackedFloat.unpackSign_def]
  simp [Nat.shiftRight_eq_div_pow]

theorem toNat_leading (bits : BitVec format.numBits) :
    (1#1 ++ unpackMantissa bits).toNat =
      2 ^ format.mantissaBitsWithoutImplicit +
        bits.toNat % 2 ^ format.mantissaBitsWithoutImplicit := by
  rw [BitVec.toNat_append, ← Nat.shiftLeft_add_eq_or_of_lt (BitVec.isLt _), toNat_mantissa]
  simp [Nat.shiftLeft_eq]

theorem unpack_pack_unpack (wide : 2 ≤ format.exponentBits) (bits : BitVec format.numBits) :
    UnpackedFloat.unpack format (UnpackedFloat.pack format (.unpack format bits)) =
      .unpack format bits := by
  by_cases notANumber : UnpackedFloat.unpack format bits = .notANumber
  · rw [notANumber]
    exact UnpackedFloat.unpack_packedNaN
  · have valid : format.Valid bits := by
      constructor
      intro greatest nonzero
      refine absurd ?_ notANumber
      rw [UnpackedFloat.unpack.eq_1, if_pos greatest, if_neg nonzero]
    rw [UnpackedFloat.pack_unpack_of_valid valid wide]

theorem unpack_notANumber {format : Format} {bits : BitVec format.numBits}
    (greatest : (unpackExponent bits).toNat = 2 ^ format.exponentBits - 1)
    (nonzero : (unpackMantissa bits).toNat ≠ 0) :
    UnpackedFloat.unpack format bits = .notANumber := by
  have ones : unpackExponent bits = -BitVec.ofNat format.exponentBits 1 := by
    apply BitVec.eq_of_toNat_eq
    rw [greatest, BitVec.neg_one_eq_allOnes, BitVec.toNat_allOnes]
  have some : unpackMantissa bits ≠ BitVec.ofNat format.mantissaBitsWithoutImplicit 0 := by
    intro zero
    exact nonzero (congrArg BitVec.toNat zero)
  rw [UnpackedFloat.unpack.eq_1, if_pos ones, if_neg some]

end Fields

end RangeRecall
