import RangeRecall.Proofs.Numeric.DoubleArithmetic

/-! Doubles of either sign and their order. A pattern is a sign and a pattern without sign. Numbers
compare as these patterns do, negative ones the other way round, and the two zeros are equal. -/

namespace RangeRecall

open Float.Model (Format UnpackedFloat)
open Float.Model.UnpackedFloat (Sign)
open BinaryFormat (InPlace)

theorem BinaryFormat.InPlace.compare_eq {format : BinaryFormat}
    {pattern steps significand otherPattern otherSteps otherSignificand : Nat}
    (place : InPlace format pattern steps significand)
    (other : InPlace format otherPattern otherSteps otherSignificand) (least : Int) :
    (compare (least + steps) (least + otherSteps)).then (compare significand otherSignificand) =
      compare pattern otherPattern := by
  have beyond {low high fraction greater : Nat} (less : low < high)
      (bounded : fraction < 2 ^ (format.fractionBits + 1))
      (full : high = 0 ∨ 2 ^ format.fractionBits ≤ greater) :
      low * 2 ^ format.fractionBits + fraction < high * 2 ^ format.fractionBits + greater := by
    have next : (low + 1) * 2 ^ format.fractionBits ≤ high * 2 ^ format.fractionBits :=
      Nat.mul_le_mul_right _ less
    rw [Nat.succ_mul] at next
    rw [Nat.pow_succ] at bounded
    omega
  obtain ⟨rfl, bounded, normal⟩ := place
  obtain ⟨rfl, otherBounded, otherNormal⟩ := other
  rcases Nat.lt_trichotomy steps otherSteps with less | rfl | greater
  · have exponents : compare (least + steps : Int) (least + otherSteps) = .lt := by
      rw [compare_lt_iff_lt]
      omega
    rw [exponents, compare_lt_iff_lt.mpr (beyond less bounded otherNormal)]
    rfl
  · rw [compare_eq_iff_eq.mpr rfl]
    simp only [Ordering.then]
    rcases Nat.lt_trichotomy significand otherSignificand with less | rfl | greater
    · rw [compare_lt_iff_lt.mpr less, compare_lt_iff_lt.mpr (Nat.add_lt_add_left less _)]
    · rw [compare_eq_iff_eq.mpr rfl, compare_eq_iff_eq.mpr rfl]
    · rw [compare_gt_iff_gt.mpr greater, compare_gt_iff_gt.mpr (Nat.add_lt_add_left greater _)]
  · have exponents : compare (least + steps : Int) (least + otherSteps) = .gt := by
      rw [compare_gt_iff_gt]
      omega
    rw [exponents, compare_gt_iff_gt.mpr (beyond greater otherBounded normal)]
    rfl

namespace Binary64

/-! ## Signs -/

def unsigned (number : Binary64) : Binary64 :=
  { bits := UInt64.ofNat (number.bits.toNat % signedLimit) }

theorem toNat_unsigned (number : Binary64) :
    number.unsigned.bits.toNat = number.bits.toNat % 2 ^ 63 := by
  have small : number.bits.toNat % signedLimit < 2 ^ 64 :=
    (Nat.mod_lt _ (by decide)).trans (by decide)
  exact UInt64.toNat_ofNat_of_lt' small

def sign (number : Binary64) : Sign :=
  if number.bits.toNat < signedLimit then .positive else .negative

def withSign (sign : Sign) : UnpackedFloat → UnpackedFloat
  | .notANumber => .notANumber
  | .infinity _ => .infinity sign
  | .zero _ => .zero sign
  | .finite _ significand exponent positive => .finite sign significand exponent positive

theorem ofBitVec_unpackSign (number : Binary64) :
    Sign.ofBitVec (@UnpackedFloat.unpackSign .binary64 number.bits.toBitVec) = number.sign := by
  have field : (@UnpackedFloat.unpackSign .binary64 number.bits.toBitVec).toNat =
      number.bits.toNat / 2 ^ 63 % 2 := Fields.toNat_sign .binary64 number.bits.toBitVec
  have bound := number.bits.toNat_lt
  simp only [Sign.ofBitVec, sign, BitVec.toNat_eq, field]
  congr 1
  simp only [signedLimit, BitVec.toNat_ofNat, eq_iff_iff]
  omega

theorem unpack_eq_withSign (number : Binary64) :
    UnpackedFloat.unpack .binary64 number.bits.toBitVec =
      withSign number.sign (UnpackedFloat.unpack .binary64 number.unsigned.bits.toBitVec) := by
  have exponent : @UnpackedFloat.unpackExponent .binary64 number.unsigned.bits.toBitVec =
      @UnpackedFloat.unpackExponent .binary64 number.bits.toBitVec := by
    apply BitVec.eq_of_toNat_eq
    rw [toNat_unpackExponent, toNat_unpackExponent, toNat_unsigned]
    omega
  have mantissa : @UnpackedFloat.unpackMantissa .binary64 number.unsigned.bits.toBitVec =
      @UnpackedFloat.unpackMantissa .binary64 number.bits.toBitVec := by
    apply BitVec.eq_of_toNat_eq
    rw [toNat_unpackMantissa, toNat_unpackMantissa, toNat_unsigned]
    omega
  rw [UnpackedFloat.unpack.eq_1, UnpackedFloat.unpack.eq_1]
  simp only [exponent, mantissa, ofBitVec_unpackSign]
  split
  · split <;> rfl
  · split
    · split <;> rfl
    · rfl

theorem unpack_toFloat_eq (number : Binary64) :
    number.toFloat.toModel.unpack = UnpackedFloat.unpack .binary64 number.bits.toBitVec :=
  Fields.unpack_pack_unpack .binary64 (by decide) number.bits.toBitVec

theorem value_eq (number : Binary64) : number.value =
    if number.bits.toNat / 2 ^ 52 % 2048 = 2047 then
      if number.bits.toNat % 2 ^ 52 = 0 then
        .infinite (number.bits.toNat / 2 ^ 63 % 2 == 1)
      else .nan
    else if number.bits.toNat / 2 ^ 52 % 2048 = 0 then
      .finite (number.bits.toNat / 2 ^ 63 % 2 == 1) (number.bits.toNat % 2 ^ 52) (-1074)
    else
      .finite (number.bits.toNat / 2 ^ 63 % 2 == 1) (number.bits.toNat % 2 ^ 52 + 2 ^ 52)
        (-1074 + (number.bits.toNat / 2 ^ 52 % 2048 - 1 : Nat)) := rfl

theorem isNaN_iff (number : Binary64) :
    number.isNaN = true ↔ BinaryFormat.double.infinityPattern < number.unsigned.bits.toNat := by
  have bound := number.bits.toNat_lt
  rw [isNaN, beq_iff_eq, value_eq, toNat_unsigned, infinityPattern_double]
  split
  · split
    · simp
      omega
    · simp
      omega
  · split
    · simp
      omega
    · simp
      omega

/-! ## Order -/

/-- The place of a number among the numbers: its pattern without the sign, negative under a sign.
Both zeros have place zero. -/
def rank (number : Binary64) : Int :=
  number.sign.apply number.unsigned.bits.toNat

theorem rank_of_unsigned {number : Binary64}
    (bounded : number.bits.toNat ≤ BinaryFormat.double.infinityPattern) :
    number.isNaN = false ∧ number.rank = number.bits.toNat := by
  have small : number.bits.toNat < 2 ^ 63 := Nat.lt_of_le_of_lt bounded (by decide)
  have same : number.unsigned.bits.toNat = number.bits.toNat := by
    rw [toNat_unsigned, Nat.mod_eq_of_lt small]
  have positive : number.sign = .positive := if_pos small
  constructor
  · rw [← Bool.not_eq_true, isNaN_iff, same]
    exact Nat.not_lt_of_le bounded
  · rw [rank, positive, same]
    rfl

inductive Placed : UnpackedFloat → Int → Prop
  | zero (sign : Sign) : Placed (.zero sign) 0
  | finite (sign : Sign) {pattern steps significand : Nat} (positive : 0 < significand)
      (place : InPlace .double pattern steps significand)
      (finite : pattern < BinaryFormat.double.infinityPattern) :
      Placed (.finite sign significand (-1074 + steps) positive) (sign.apply pattern)
  | infinity (sign : Sign) :
      Placed (.infinity sign) (sign.apply BinaryFormat.double.infinityPattern)

theorem Placed.le_iff {left right : UnpackedFloat} {leftRank rightRank : Int}
    (leftPlaced : Placed left leftRank) (rightPlaced : Placed right rightRank) :
    left.le right = true ↔ leftRank ≤ rightRank := by
  have infinity : (0 : Int) < BinaryFormat.double.infinityPattern := by decide
  cases leftPlaced with
  | zero sign =>
      cases rightPlaced with
      | zero other => simp [UnpackedFloat.le, UnpackedFloat.compare]
      | finite other positive place finite =>
          have some := place.eq
          cases other with
          | negative =>
              simp [UnpackedFloat.le, UnpackedFloat.compare, Sign.apply]
              omega
          | positive => simp [UnpackedFloat.le, UnpackedFloat.compare, Sign.apply]
      | infinity other => cases sign <;> cases other <;> decide
  | finite sign positive place finite =>
      have some := place.eq
      cases rightPlaced with
      | zero other =>
          cases sign with
          | negative => simp [UnpackedFloat.le, UnpackedFloat.compare, Sign.apply]
          | positive =>
              simp [UnpackedFloat.le, UnpackedFloat.compare, Sign.apply]
              omega
      | finite other otherPositive otherPlace otherFinite =>
          have otherSome := otherPlace.eq
          cases sign <;> cases other <;>
            simp [UnpackedFloat.le, UnpackedFloat.compare, Sign.apply, place.compare_eq otherPlace,
              Nat.isLE_compare, Nat.isGE_compare]
          omega
      | infinity other =>
          cases sign <;> cases other <;>
            simp [UnpackedFloat.le, UnpackedFloat.compare, Sign.apply] <;> omega
  | infinity sign =>
      cases rightPlaced with
      | zero other => cases sign <;> cases other <;> decide
      | finite other positive place finite =>
          cases sign <;> cases other <;>
            simp [UnpackedFloat.le, UnpackedFloat.compare, Sign.apply] <;> omega
      | infinity other => cases sign <;> cases other <;> decide

theorem unpack_infinity :
    UnpackedFloat.unpack .binary64
      (UInt64.ofNat BinaryFormat.double.infinityPattern).toBitVec = .infinity .positive := rfl

theorem bits_eq_infinity {number : Binary64}
    (pattern : number.bits.toNat = BinaryFormat.double.infinityPattern) :
    number.bits = UInt64.ofNat BinaryFormat.double.infinityPattern := by
  rw [← pattern, UInt64.ofNat_toNat]

theorem placed_unpack {number : Binary64} (isNumber : number.isNaN = false) :
    Placed number.toFloat.toModel.unpack number.rank := by
  have bounded : number.unsigned.bits.toNat ≤ BinaryFormat.double.infinityPattern := by
    rw [← not_lt, ← isNaN_iff, isNumber]
    exact Bool.false_ne_true
  rw [unpack_toFloat_eq, unpack_eq_withSign, rank]
  rcases bounded.lt_or_eq with measure | greatest
  · obtain ⟨steps, significand, place⟩ :=
      BinaryFormat.double.exists_place number.unsigned.bits.toNat
    rw [unpack_of_place measure place]
    rcases Nat.eq_zero_or_pos significand with rfl | positive
    · rw [place.pattern_eq_zero_iff.mpr rfl]
      cases number.sign
      · exact .zero _
      · exact .zero _
    · rw [unrounded_of_pos .positive positive]
      exact .finite _ positive place measure
  · rw [bits_eq_infinity greatest, unpack_infinity, ← bits_eq_infinity greatest, greatest]
    exact .infinity _

theorem unpack_of_isNaN {number : Binary64} (notANumber : number.isNaN = true) :
    number.toFloat.toModel.unpack = .notANumber := by
  have beyond := (isNaN_iff number).mp notANumber
  have bound := number.bits.toNat_lt
  rw [toNat_unsigned, infinityPattern_double] at beyond
  have greatest : number.bits.toNat / 2 ^ 52 % 2048 = 2047 := by omega
  have nonzero : number.bits.toNat % 2 ^ 52 ≠ 0 := by omega
  rw [← toNat_unpackExponent] at greatest
  rw [← toNat_unpackMantissa] at nonzero
  exact (unpack_toFloat_eq number).trans (Fields.unpack_notANumber greatest nonzero)

/-- The order of the real numbers, with the infinities at its ends. What is not a number is not in
it. -/
instance : LE Binary64 where
  le left right := left.toFloat ≤ right.toFloat

instance (left right : Binary64) : Decidable (left ≤ right) :=
  inferInstanceAs (Decidable (left.toFloat ≤ right.toFloat))

theorem le_iff {left right : Binary64} :
    left ≤ right ↔ left.isNaN = false ∧ right.isNaN = false ∧ left.rank ≤ right.rank := by
  have compared : left ≤ right ↔
      left.toFloat.toModel.unpack.le right.toFloat.toModel.unpack = true := by
    change Float.le left.toFloat right.toFloat = true ↔ _
    rw [Float.le, decide_eq_true_iff]
    rfl
  rw [compared]
  cases leftIsNaN : left.isNaN with
  | true => simp [unpack_of_isNaN leftIsNaN, UnpackedFloat.le, UnpackedFloat.compare]
  | false =>
      cases rightIsNaN : right.isNaN with
      | true =>
          rw [unpack_of_isNaN rightIsNaN]
          cases left.toFloat.toModel.unpack <;>
            simp [UnpackedFloat.le, UnpackedFloat.compare]
      | false => simpa using (placed_unpack leftIsNaN).le_iff (placed_unpack rightIsNaN)

end Binary64

end RangeRecall
