import RangeRecall.Numeric.Binary64
import RangeRecall.Proofs.Numeric.Fields
import RangeRecall.Proofs.Numeric.Packing

/-! Arithmetic on doubles that are neither negative nor infinite. Each operation rounds its exact
result once. -/

namespace RangeRecall

open Float.Model (Format UnpackedFloat)
open Float.Model.UnpackedFloat (Sign)
open BinaryFormat (RoundsTo InPlace)

namespace Binary64

def IsMeasure (number : Binary64) : Prop :=
  number.bits.toNat < BinaryFormat.double.infinityPattern

def magnitude (number : Binary64) : ℚ :=
  BinaryFormat.double.magnitude number.bits.toNat

theorem value_of_place {number : Binary64} (measure : number.IsMeasure) {steps significand : Nat}
    (place : InPlace .double number.bits.toNat steps significand) :
    number.value = .finite false significand (BinaryFormat.double.leastExponent + steps) := by
  have decoded := BinaryFormat.decode_of_place place measure false
  rwa [show BinaryFormat.double.signPattern false = 0 from rfl, Nat.zero_add] at decoded

/-! ## Unpacking -/

theorem toNat_unpackExponent (number : Binary64) :
    (@UnpackedFloat.unpackExponent .binary64 number.bits.toBitVec).toNat =
      number.bits.toNat / 2 ^ 52 % 2048 :=
  Fields.toNat_exponent .binary64 number.bits.toBitVec

theorem toNat_unpackMantissa (number : Binary64) :
    (@UnpackedFloat.unpackMantissa .binary64 number.bits.toBitVec).toNat =
      number.bits.toNat % 2 ^ 52 :=
  Fields.toNat_mantissa .binary64 number.bits.toBitVec

theorem unpackExponent_lt {number : Binary64} (measure : number.IsMeasure) :
    number.bits.toNat / 2 ^ 52 < 2047 ∧ number.bits.toNat / 2 ^ 52 % 2048 =
      number.bits.toNat / 2 ^ 52 := by
  change number.bits.toNat < 2047 * 2 ^ 52 at measure
  omega

theorem unpackExponent_ne {number : Binary64} (measure : number.IsMeasure) :
    @UnpackedFloat.unpackExponent .binary64 number.bits.toBitVec ≠ -1#11 := by
  intro greatest
  have fields := toNat_unpackExponent number
  have bound := unpackExponent_lt measure
  rw [greatest, bound.2] at fields
  exact absurd fields.symm bound.1.ne

theorem unpackSign_eq {number : Binary64} (measure : number.IsMeasure) :
    Sign.ofBitVec (@UnpackedFloat.unpackSign .binary64 number.bits.toBitVec) = .positive := by
  have field : @UnpackedFloat.unpackSign .binary64 number.bits.toBitVec = 0#1 := by
    apply BitVec.eq_of_toNat_eq
    rw [Fields.toNat_sign]
    change number.bits.toNat < 2047 * 2 ^ 52 at measure
    change number.bits.toNat / 2 ^ 63 % 2 = 0
    omega
  rw [field]
  rfl

theorem unpack_of_place {number : Binary64} (measure : number.IsMeasure)
    {steps significand : Nat} (place : InPlace .double number.bits.toNat steps significand) :
    UnpackedFloat.unpack .binary64 number.bits.toBitVec =
      unrounded .positive (⟨significand, false, false⟩, -1074 + steps) := by
  obtain ⟨pattern, bounded, normal⟩ := place
  change number.bits.toNat = steps * 2 ^ 52 + significand at pattern
  change significand < 2 ^ 53 at bounded
  change steps = 0 ∨ 2 ^ 52 ≤ significand at normal
  have exponent := toNat_unpackExponent number
  rw [(unpackExponent_lt measure).2] at exponent
  have mantissa := toNat_unpackMantissa number
  have leading : (1#1 ++ @UnpackedFloat.unpackMantissa .binary64 number.bits.toBitVec).toNat =
      2 ^ 52 + number.bits.toNat % 2 ^ 52 := Fields.toNat_leading .binary64 number.bits.toBitVec
  have bias : ((Format.binary64.exponentBias : Int) + (52 : Nat)) = 1075 := rfl
  have noExponent : (0#11).toNat = 0 := rfl
  have noFraction : (0#52).toNat = 0 := rfl
  rw [UnpackedFloat.unpack.eq_1]
  simp only [unpackSign_eq measure]
  rw [if_neg (unpackExponent_ne measure)]
  simp only [BitVec.toNat_eq, exponent, mantissa, leading, bias, noExponent, noFraction]
  split
  · rename_i least
    have same : number.bits.toNat % 2 ^ 52 = significand := by omega
    obtain rfl : steps = 0 := by omega
    split
    · rename_i zero
      obtain rfl : significand = 0 := by omega
      rfl
    · rename_i nonzero
      rw [unrounded_of_pos .positive (show 0 < significand by omega)]
      congr 1
      omega
  · rename_i inner
    have same : 2 ^ 52 + number.bits.toNat % 2 ^ 52 = significand := by omega
    rw [unrounded_of_pos .positive (show 0 < significand by omega)]
    congr 1
    omega

theorem unpack_toFloat {number : Binary64} (measure : number.IsMeasure)
    {steps significand : Nat} (place : InPlace .double number.bits.toNat steps significand) :
    number.toFloat.toModel.unpack =
      unrounded .positive (⟨significand, false, false⟩, -1074 + steps) :=
  (Fields.unpack_pack_unpack .binary64 (by decide) number.bits.toBitVec).trans
    (unpack_of_place measure place)

theorem unpack_cases {number : Binary64} (measure : number.IsMeasure) :
    (number.magnitude = 0 ∧ number.toFloat.toModel.unpack = .zero .positive) ∨
      ∃ significand exponent, ∃ positive : 0 < significand,
        number.toFloat.toModel.unpack = .finite .positive significand exponent positive ∧
          number.magnitude = significand * 2 ^ exponent ∧
          (exponent ≤ -1074 ∨ 52 ≤ significand.log2) := by
  obtain ⟨steps, significand, place⟩ := BinaryFormat.double.exists_place number.bits.toNat
  have magnitude : number.magnitude = significand * 2 ^ (-1074 + steps : Int) :=
    place.magnitude_eq
  rw [unpack_toFloat measure place, magnitude]
  rcases Nat.eq_zero_or_pos significand with rfl | positive
  · exact .inl ⟨by rw [Nat.cast_zero, zero_mul], rfl⟩
  · refine .inr ⟨significand, _, positive, unrounded_of_pos .positive positive, rfl, ?_⟩
    rcases place.normal with rfl | full
    · exact .inl le_rfl
    · exact .inr ((Nat.le_log2 positive.ne').mpr full)

/-! ## Operations -/

variable {left right : Binary64}

theorem roundsTo_zero : RoundsTo .double 0 0 := by
  simpa using RoundsTo.magnitude (Nat.zero_le BinaryFormat.double.infinityPattern)

theorem multiply_rounds (leftMeasure : left.IsMeasure) (rightMeasure : right.IsMeasure) :
    RoundsTo .double (left.magnitude * right.magnitude) (left.multiply right).bits.toNat := by
  change RoundsTo _ _ (UnpackedFloat.pack .binary64 (UnpackedFloat.mul .binary64
    left.toFloat.toModel.unpack right.toFloat.toModel.unpack)).toNat
  rcases unpack_cases leftMeasure with
    ⟨leftZero, leftUnpack⟩ | ⟨_, _, leftPositive, leftUnpack, leftValue, leftFull⟩
  · rw [leftZero, leftUnpack, zero_mul]
    rcases unpack_cases rightMeasure with ⟨_, rightUnpack⟩ | ⟨_, _, _, rightUnpack, _⟩
    · rw [rightUnpack]
      exact roundsTo_zero
    · rw [rightUnpack]
      exact roundsTo_zero
  · rcases unpack_cases rightMeasure with
      ⟨rightZero, rightUnpack⟩ | ⟨_, _, rightPositive, rightUnpack, rightValue, rightFull⟩
    · rw [rightZero, leftUnpack, rightUnpack, mul_zero]
      exact roundsTo_zero
    · rw [leftUnpack, leftValue, rightUnpack, rightValue]
      exact pack_mul leftPositive rightPositive leftFull rightFull

theorem divide_rounds (leftMeasure : left.IsMeasure) (rightMeasure : right.IsMeasure)
    (nonzero : right.magnitude ≠ 0) :
    RoundsTo .double (left.magnitude / right.magnitude) (left.divide right).bits.toNat := by
  change RoundsTo _ _ (UnpackedFloat.pack .binary64 (UnpackedFloat.div .binary64
    left.toFloat.toModel.unpack right.toFloat.toModel.unpack)).toNat
  rcases unpack_cases rightMeasure with
    ⟨rightZero, _⟩ | ⟨_, _, rightPositive, rightUnpack, rightValue, _⟩
  · exact absurd rightZero nonzero
  · rcases unpack_cases leftMeasure with
      ⟨leftZero, leftUnpack⟩ | ⟨_, _, leftPositive, leftUnpack, leftValue, _⟩
    · rw [leftZero, leftUnpack, rightUnpack, zero_div]
      exact roundsTo_zero
    · rw [leftUnpack, leftValue, rightUnpack, rightValue]
      exact pack_div leftPositive rightPositive

theorem pack_unpack_roundsTo {number : Binary64} (measure : number.IsMeasure) :
    RoundsTo .double number.magnitude
      (UnpackedFloat.pack .binary64 number.toFloat.toModel.unpack).toNat := by
  obtain ⟨steps, significand, place⟩ := BinaryFormat.double.exists_place number.bits.toNat
  have same : (UnpackedFloat.pack .binary64 number.toFloat.toModel.unpack).toNat =
      number.bits.toNat := by
    rw [unpack_toFloat measure place]
    rcases Nat.eq_zero_or_pos significand with rfl | positive
    · rw [place.pattern_eq_zero_iff.mpr rfl]
      rfl
    · rw [unrounded_of_pos .positive positive, toNat_pack positive place,
        min_eq_left measure.le]
  rw [same]
  exact .magnitude measure.le

theorem add_rounds (leftMeasure : left.IsMeasure) (rightMeasure : right.IsMeasure) :
    RoundsTo .double (left.magnitude + right.magnitude) (left.add right).bits.toNat := by
  change RoundsTo _ _ (UnpackedFloat.pack .binary64 (UnpackedFloat.add .binary64
    left.toFloat.toModel.unpack right.toFloat.toModel.unpack)).toNat
  rcases unpack_cases leftMeasure with
    ⟨leftZero, leftUnpack⟩ | ⟨_, _, leftPositive, leftUnpack, leftValue, leftFull⟩
  · have packed := pack_unpack_roundsTo rightMeasure
    rw [leftZero, leftUnpack, zero_add]
    rcases unpack_cases rightMeasure with ⟨_, rightUnpack⟩ | ⟨_, _, _, rightUnpack, _⟩
    · rw [rightUnpack] at packed ⊢
      exact packed
    · rw [rightUnpack] at packed ⊢
      exact packed
  · rcases unpack_cases rightMeasure with
      ⟨rightZero, rightUnpack⟩ | ⟨_, _, rightPositive, rightUnpack, rightValue, rightFull⟩
    · have packed := pack_unpack_roundsTo leftMeasure
      rw [leftUnpack] at packed
      rw [rightZero, leftUnpack, rightUnpack, add_zero]
      exact packed
    · rw [leftUnpack, leftValue, rightUnpack, rightValue]
      exact pack_add leftPositive rightPositive

end Binary64

end RangeRecall
