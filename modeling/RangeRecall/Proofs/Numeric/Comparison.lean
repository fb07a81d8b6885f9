import RangeRecall.Numeric.Binary32
import RangeRecall.Proofs.Numeric.Fields

/-! Single-precision numbers in their order. What is not a number is less than nothing and greater
than nothing, and all others compare like integers that are read off their patterns. -/

namespace RangeRecall

namespace Binary32

open Float.Model (Format UnpackedFloat)
open Float.Model.UnpackedFloat (Sign)

/-- The place of a number among the numbers: its pattern without the sign, negative under a sign.
Both zeros have place zero. -/
def rank (number : Binary32) : Int :=
  let pattern := number.bits.toNat
  if pattern < 2147483648 then pattern else -(pattern - 2147483648 : Nat)

/-- The places of the values that patterns stand for. An exponent above the least one goes with
a significand that has all its bits. -/
inductive Ranked : UnpackedFloat → Int → Prop
  | infinity (sign : Sign) : Ranked (.infinity sign) (sign.apply 2139095040)
  | zero (sign : Sign) : Ranked (.zero sign) 0
  | finite (sign : Sign) {significand : Nat} {exponent : Int} (positive : 0 < significand)
      (bounded : significand < 16777216) (least : -149 ≤ exponent) (greatest : exponent ≤ 104)
      (normal : exponent = -149 ∨ 8388608 ≤ significand) :
      Ranked (.finite sign significand exponent positive)
        (sign.apply ((exponent + 149) * 8388608 + significand))

theorem Ranked.lt_iff {left right : UnpackedFloat} {leftRank rightRank : Int}
    (leftRanked : Ranked left leftRank) (rightRanked : Ranked right rightRank) :
    left.lt right = true ↔ leftRank < rightRank := by
  cases leftRanked with
  | infinity sign =>
      cases rightRanked with
      | infinity other => cases sign <;> cases other <;> decide
      | zero other => cases sign <;> cases other <;> decide
      | finite other positive bounded least greatest normal =>
          cases sign <;> cases other <;>
            simp [UnpackedFloat.lt, UnpackedFloat.compare, Sign.apply] <;> omega
  | zero sign =>
      cases rightRanked with
      | infinity other => cases sign <;> cases other <;> decide
      | zero other => cases sign <;> cases other <;> decide
      | finite other positive bounded least greatest normal =>
          cases sign <;> cases other <;>
            simp [UnpackedFloat.lt, UnpackedFloat.compare, Sign.apply] <;> omega
  | finite sign positive bounded least greatest normal =>
      cases rightRanked with
      | infinity other =>
          cases sign <;> cases other <;>
            simp [UnpackedFloat.lt, UnpackedFloat.compare, Sign.apply] <;> omega
      | zero other =>
          cases sign <;> cases other <;>
            simp [UnpackedFloat.lt, UnpackedFloat.compare, Sign.apply] <;> omega
      | finite other otherPositive otherBounded otherLeast otherGreatest otherNormal =>
          -- Only the least exponent goes with a significand that lacks bits, so of two exponents
          -- the greater one decides.
          cases sign <;> cases other <;>
            simp [UnpackedFloat.lt, UnpackedFloat.compare, Sign.apply, Ordering.swap_eq_lt,
              Ordering.then_eq_lt, Ordering.then_eq_gt, compare_lt_iff_lt,
              compare_gt_iff_gt] <;>
            omega

/-! ## Fields of a pattern -/

theorem toNat_unpackExponent (number : Binary32) :
    (@UnpackedFloat.unpackExponent .binary32 number.bits.toBitVec).toNat =
      number.bits.toNat / 8388608 % 256 :=
  Fields.toNat_exponent .binary32 number.bits.toBitVec

theorem toNat_unpackMantissa (number : Binary32) :
    (@UnpackedFloat.unpackMantissa .binary32 number.bits.toBitVec).toNat =
      number.bits.toNat % 8388608 :=
  Fields.toNat_mantissa .binary32 number.bits.toBitVec

theorem sign_apply (number : Binary32) (magnitude : Int) :
    (Sign.ofBitVec (@UnpackedFloat.unpackSign .binary32 number.bits.toBitVec)).apply
        magnitude =
      if number.bits.toNat < 2147483648 then magnitude else -magnitude := by
  have bound := number.bits.toNat_lt
  have field : (@UnpackedFloat.unpackSign .binary32 number.bits.toBitVec).toNat =
      number.bits.toNat / 2147483648 % 2 := Fields.toNat_sign .binary32 number.bits.toBitVec
  unfold Sign.ofBitVec
  simp only [BitVec.toNat_eq, field]
  split <;> split <;> simp [Sign.apply] <;> simp at * <;> omega

theorem isNaN_iff (number : Binary32) :
    number.isNaN = true ↔
      number.bits.toNat / 8388608 % 256 = 255 ∧ number.bits.toNat % 8388608 ≠ 0 := by
  have decoded : number.value =
      if number.bits.toNat / 8388608 % 256 = 255 then
        if number.bits.toNat % 8388608 = 0 then
          .infinite (number.bits.toNat / 2147483648 % 2 == 1)
        else .nan
      else if number.bits.toNat / 8388608 % 256 = 0 then
        .finite (number.bits.toNat / 2147483648 % 2 == 1) (number.bits.toNat % 8388608) (-149)
      else
        .finite (number.bits.toNat / 2147483648 % 2 == 1)
          (number.bits.toNat % 8388608 + 8388608)
          (-149 + (number.bits.toNat / 8388608 % 256 - 1 : Nat)) := rfl
  rw [isNaN, beq_iff_eq, decoded]
  split
  · split <;> simp_all
  · split <;> simp_all

theorem rank_eq_apply {number : Binary32} {magnitude : Int}
    (pattern : magnitude = (number.bits.toNat % 2147483648 : Nat)) :
    number.rank = (Sign.ofBitVec (@UnpackedFloat.unpackSign .binary32
      number.bits.toBitVec)).apply magnitude := by
  have bound := number.bits.toNat_lt
  rw [sign_apply, rank, pattern]
  split <;> omega

theorem ranked_unpack {number : Binary32} (isNumber : number.isNaN = false) :
    Ranked (.unpack .binary32 number.bits.toBitVec) number.rank := by
  have bound := number.bits.toNat_lt
  have significand : (1#1 ++ @UnpackedFloat.unpackMantissa .binary32 number.bits.toBitVec).toNat =
      8388608 + number.bits.toNat % 8388608 := Fields.toNat_leading .binary32 number.bits.toBitVec
  have bias : ((Format.binary32.exponentBias : Int) + (23 : Nat)) = 150 := rfl
  have ones : (-1#8).toNat = 255 := rfl
  have noExponent : (0#8).toNat = 0 := rfl
  have noFraction : (0#23).toNat = 0 := rfl
  have whole : number.bits.toNat % 2147483648 =
      number.bits.toNat / 8388608 % 256 * 8388608 + number.bits.toNat % 8388608 := by
    omega
  rw [UnpackedFloat.unpack.eq_1]
  simp only [BitVec.toNat_eq, toNat_unpackExponent, toNat_unpackMantissa, significand,
    bias, ones, noExponent, noFraction]
  -- A number with the greatest exponent is infinite; the least one belongs to zero and to
  -- significands that lack bits.
  split
  · rename_i greatest
    have zeroFraction : number.bits.toNat % 8388608 = 0 := by
      by_contra nonzero
      rw [(isNaN_iff number).mpr ⟨greatest, nonzero⟩] at isNumber
      cases isNumber
    have place := @rank_eq_apply number 2139095040 (by omega)
    rw [if_pos zeroFraction, place]
    exact .infinity _
  · rename_i notGreatest
    split
    · rename_i least
      split
      · rename_i zeroFraction
        have zero : number.rank = 0 := by
          rw [rank]
          omega
        rw [zero]
        exact .zero _
      · have place := @rank_eq_apply number
          (((number.bits.toNat / 8388608 % 256 : Nat) - 150 + 1 + 149 : Int) * 8388608 +
            (number.bits.toNat % 8388608 : Nat)) (by omega)
        rw [place]
        exact .finite _ _ (by omega) (by omega) (by omega) (by omega)
    · rename_i notLeast
      have place := @rank_eq_apply number
        (((number.bits.toNat / 8388608 % 256 : Nat) - 150 + 149 : Int) * 8388608 +
          (8388608 + number.bits.toNat % 8388608 : Nat)) (by omega)
      rw [place]
      exact .finite _ _ (by omega) (by omega) (by omega) (by omega)

theorem unpack_toFloat (number : Binary32) :
    number.toFloat.toModel.unpack = .unpack .binary32 number.bits.toBitVec :=
  Fields.unpack_pack_unpack .binary32 (by decide) number.bits.toBitVec

theorem unpack_of_isNaN {number : Binary32} (notANumber : number.isNaN = true) :
    UnpackedFloat.unpack .binary32 number.bits.toBitVec = .notANumber := by
  obtain ⟨greatest, nonzero⟩ := (isNaN_iff number).mp notANumber
  rw [← toNat_unpackExponent] at greatest
  rw [← toNat_unpackMantissa] at nonzero
  exact Fields.unpack_notANumber greatest nonzero

theorem isLess_iff {left right : Binary32} :
    left.isLess right = true ↔
      left.isNaN = false ∧ right.isNaN = false ∧ left.rank < right.rank := by
  have compared : left.isLess right =
      left.toFloat.toModel.unpack.lt right.toFloat.toModel.unpack :=
    Bool.decide_eq_true
  rw [compared, unpack_toFloat, unpack_toFloat]
  cases leftIsNaN : left.isNaN with
  | true => simp [unpack_of_isNaN leftIsNaN, UnpackedFloat.lt, UnpackedFloat.compare]
  | false =>
      cases rightIsNaN : right.isNaN with
      | true =>
          rw [unpack_of_isNaN rightIsNaN]
          cases UnpackedFloat.unpack .binary32 left.bits.toBitVec <;>
            simp [UnpackedFloat.lt, UnpackedFloat.compare]
      | false => simpa using (ranked_unpack leftIsNaN).lt_iff (ranked_unpack rightIsNaN)

end Binary32

end RangeRecall
