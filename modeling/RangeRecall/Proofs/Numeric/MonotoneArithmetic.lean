import RangeRecall.Proofs.Numeric.DoubleBounds
import RangeRecall.Proofs.Numeric.SignedDoubles

/-! Arithmetic that keeps the order of doubles. Division and multiplication by a positive number and
rounding to a natural number keep the order of positive numbers, up to infinity. What is not
positive stays so under them and rounds to zero. -/

namespace RangeRecall

open Float.Model (Format UnpackedFloat)
open Float.Model.UnpackedFloat (Sign)
open BinaryFormat (RoundsTo)

namespace Binary64

def IsPositive (number : Binary64) : Prop :=
  0 < number.bits.toNat ∧ number.bits.toNat ≤ BinaryFormat.double.infinityPattern

theorem isPositive_iff {number : Binary64} :
    number.IsPositive ↔ number.isNaN = false ∧ 0 < number.rank := by
  have bound := number.bits.toNat_lt
  rw [← Bool.not_eq_true, isNaN_iff, rank, toNat_unsigned, IsPositive, infinityPattern_double]
  by_cases small : number.bits.toNat < signedLimit
  · rw [sign, if_pos small]
    simp only [signedLimit, Sign.apply] at *
    omega
  · rw [sign, if_neg small]
    simp only [signedLimit, Sign.apply] at *
    omega

namespace IsPositive

variable {number : Binary64}

theorem magnitude_pos (positive : number.IsPositive) : 0 < number.magnitude := by
  have least : BinaryFormat.double.magnitude 0 < number.magnitude :=
    BinaryFormat.magnitude_strictMono positive.1
  rwa [BinaryFormat.magnitude_zero] at least

theorem unpack_finite (positive : number.IsPositive) (measure : number.IsMeasure) :
    ∃ significand exponent, ∃ some : 0 < significand,
      number.toFloat.toModel.unpack = .finite .positive significand exponent some := by
  rcases unpack_cases measure with ⟨zero, -⟩ | ⟨significand, exponent, some, unpack, -⟩
  · exact absurd zero positive.magnitude_pos.ne'
  · exact ⟨significand, exponent, some, unpack⟩

end IsPositive

theorem unpack_of_infinite {number : Binary64}
    (infinite : number.bits.toNat = BinaryFormat.double.infinityPattern) :
    number.toFloat.toModel.unpack = .infinity .positive := by
  rw [unpack_toFloat_eq, bits_eq_infinity infinite]
  exact unpack_infinity

/-! ## Operations on positive numbers -/

theorem mono_of_rounds {operation : Binary64 → Binary64} {exactly : ℚ → ℚ}
    (monotone : Monotone exactly)
    (rounds : ∀ number : Binary64, number.IsMeasure →
      RoundsTo .double (exactly number.magnitude) (operation number).bits.toNat)
    (infinite : ∀ number : Binary64, number.bits.toNat = BinaryFormat.double.infinityPattern →
      (operation number).bits.toNat = BinaryFormat.double.infinityPattern)
    {left right : Binary64} (ordered : left.bits.toNat ≤ right.bits.toNat)
    (bounded : right.bits.toNat ≤ BinaryFormat.double.infinityPattern) :
    (operation left).bits.toNat ≤ (operation right).bits.toNat ∧
      (operation right).bits.toNat ≤ BinaryFormat.double.infinityPattern := by
  have bound {number : Binary64}
      (small : number.bits.toNat ≤ BinaryFormat.double.infinityPattern) :
      (operation number).bits.toNat ≤ BinaryFormat.double.infinityPattern := by
    rcases small.lt_or_eq with measure | greatest
    · exact (rounds number measure).le_infinity
    · exact (infinite number greatest).le
  refine ⟨?_, bound bounded⟩
  rcases bounded.lt_or_eq with measure | greatest
  · apply (rounds left (Nat.lt_of_le_of_lt ordered measure)).mono (rounds right measure)
    exact monotone (BinaryFormat.magnitude_strictMono.monotone ordered)
  · rw [infinite right greatest]
    exact bound (ordered.trans bounded)

section

variable {left right operand : Binary64}

theorem divide_mono (positive : operand.IsPositive) (measure : operand.IsMeasure)
    (ordered : left.bits.toNat ≤ right.bits.toNat)
    (bounded : right.bits.toNat ≤ BinaryFormat.double.infinityPattern) :
    (left.divide operand).bits.toNat ≤ (right.divide operand).bits.toNat ∧
      (right.divide operand).bits.toNat ≤ BinaryFormat.double.infinityPattern := by
  have scale := positive.magnitude_pos
  obtain ⟨_, _, _, unpack⟩ := positive.unpack_finite measure
  apply @mono_of_rounds (divide · operand) (· / operand.magnitude) _ _ _ left right ordered bounded
  · intro _ _ le
    exact div_le_div_of_nonneg_right le scale.le
  · intro number numberMeasure
    exact divide_rounds numberMeasure measure scale.ne'
  · intro number infinite
    change (UnpackedFloat.pack .binary64 (UnpackedFloat.div .binary64
      number.toFloat.toModel.unpack operand.toFloat.toModel.unpack)).toNat = _
    rw [unpack_of_infinite infinite, unpack]
    rfl

theorem multiply_mono (positive : operand.IsPositive) (measure : operand.IsMeasure)
    (ordered : left.bits.toNat ≤ right.bits.toNat)
    (bounded : right.bits.toNat ≤ BinaryFormat.double.infinityPattern) :
    (left.multiply operand).bits.toNat ≤ (right.multiply operand).bits.toNat ∧
      (right.multiply operand).bits.toNat ≤ BinaryFormat.double.infinityPattern := by
  have scale := positive.magnitude_pos
  obtain ⟨_, _, _, unpack⟩ := positive.unpack_finite measure
  apply @mono_of_rounds (multiply · operand) (· * operand.magnitude) _ _ _ left right ordered
    bounded
  · intro _ _ le
    exact mul_le_mul_of_nonneg_right le scale.le
  · intro number numberMeasure
    exact multiply_rounds numberMeasure measure
  · intro number infinite
    change (UnpackedFloat.pack .binary64 (UnpackedFloat.mul .binary64
      number.toFloat.toModel.unpack operand.toFloat.toModel.unpack)).toNat = _
    rw [unpack_of_infinite infinite, unpack]
    rfl

theorem multiply_infinite (positive : left.IsPositive)
    (infinite : operand.bits.toNat = BinaryFormat.double.infinityPattern) :
    (left.multiply operand).bits.toNat = BinaryFormat.double.infinityPattern := by
  change (UnpackedFloat.pack .binary64 (UnpackedFloat.mul .binary64
    left.toFloat.toModel.unpack operand.toFloat.toModel.unpack)).toNat = _
  rw [unpack_of_infinite infinite]
  rcases positive.2.lt_or_eq with measure | greatest
  · obtain ⟨_, _, _, unpack⟩ := positive.unpack_finite measure
    rw [unpack]
    rfl
  · rw [unpack_of_infinite greatest]
    rfl

end

/-! ## Rounding to a natural number -/

theorem roundToNat_of_measure {number : Binary64} (measure : number.IsMeasure) :
    number.roundToNat = min ⌊number.magnitude + 1 / 2⌋₊ (wordLimit - 1) := by
  obtain ⟨steps, significand, place⟩ := BinaryFormat.double.exists_place number.bits.toNat
  have value : number.value = .finite false significand (-1074 + steps) :=
    value_of_place measure place
  have magnitude : number.magnitude = significand * 2 ^ (-1074 + steps : Int) := place.magnitude_eq
  rw [roundToNat, value, magnitude]
  generalize (-1074 + steps : Int) = exponent
  have half : (significand : ℚ) * 2 ^ exponent + 1 / 2 =
      ((2 * significand * twoTo exponent.toNat + twoTo (-exponent).toNat : Nat) : ℚ) /
        (2 * twoTo (-exponent).toNat : Nat) := by
    rw [BinaryFormat.zpow_eq_div, twoTo_eq, twoTo_eq]
    push_cast
    field_simp
  rw [half, Nat.floor_div_eq_div]

theorem roundToNat_of_infinite {number : Binary64}
    (infinite : number.bits.toNat = BinaryFormat.double.infinityPattern) :
    number.roundToNat = wordLimit - 1 := by
  have value : number.value = .infinite false := by
    rw [value_eq, infinite]
    rfl
  rw [roundToNat, value]
  rfl

theorem roundToNat_lt (number : Binary64) : number.roundToNat < wordLimit := by
  rw [roundToNat]
  split
  · decide
  · split <;> decide
  · decide
  · exact Nat.lt_of_le_of_lt (min_le_right _ _) (by decide)

theorem roundToNat_mono {left right : Binary64} (ordered : left.bits.toNat ≤ right.bits.toNat)
    (bounded : right.bits.toNat ≤ BinaryFormat.double.infinityPattern) :
    left.roundToNat ≤ right.roundToNat := by
  rcases bounded.lt_or_eq with measure | infinite
  · rw [roundToNat_of_measure (Nat.lt_of_le_of_lt ordered measure), roundToNat_of_measure measure]
    have magnitudes : left.magnitude ≤ right.magnitude :=
      BinaryFormat.magnitude_strictMono.monotone ordered
    apply min_le_min_right
    apply Nat.floor_mono
    linarith
  · rw [roundToNat_of_infinite infinite]
    exact Nat.le_pred_of_lt left.roundToNat_lt

theorem roundToNat_of_not_positive {number : Binary64} (notPositive : ¬number.IsPositive) :
    number.roundToNat = 0 := by
  have bound := number.bits.toNat_lt
  rw [IsPositive, infinityPattern_double] at notPositive
  by_cases signed : number.bits.toNat / 2 ^ 63 % 2 = 1
  · have value : number.value = .nan ∨ number.value = .infinite true ∨
        ∃ significand exponent, number.value = .finite true significand exponent := by
      rw [value_eq, signed]
      split
      · split
        · exact .inr (.inl rfl)
        · exact .inl rfl
      · split
        · exact .inr (.inr ⟨_, _, rfl⟩)
        · exact .inr (.inr ⟨_, _, rfl⟩)
    rcases value with value | value | ⟨_, _, value⟩ <;> rw [roundToNat, value]
    rfl
  · rcases Nat.eq_zero_or_pos number.bits.toNat with least | some
    · have same : number = zero := congrArg Binary64.mk (UInt64.toNat_inj.mp least)
      rw [same]
      decide +kernel
    · have notANumber : number.value = .nan := by
        rw [value_eq, if_pos (by omega), if_neg (by omega)]
      rw [roundToNat, notANumber]

/-! ## What is not positive -/

inductive NotPositive : UnpackedFloat → Prop
  | notANumber : NotPositive .notANumber
  | zero (sign : Sign) : NotPositive (.zero sign)
  | finite {significand : Nat} {exponent : Int} (some : 0 < significand) :
      NotPositive (.finite .negative significand exponent some)
  | infinity : NotPositive (.infinity .negative)

inductive Unsigned : UnpackedFloat → Prop
  | zero : Unsigned (.zero .positive)
  | finite {significand : Nat} {exponent : Int} (some : 0 < significand) :
      Unsigned (.finite .positive significand exponent some)
  | infinity : Unsigned (.infinity .positive)

namespace NotPositive

variable {left right : UnpackedFloat}

theorem roundWithAccuracy (mantissa : Nat) (exponent : Int) (accuracy : UnpackedFloat.Accuracy) :
    NotPositive
      (UnpackedFloat.roundWithAccuracy .binary64 .negative mantissa exponent accuracy) := by
  rw [roundWithAccuracy_eq, unrounded]
  split
  · exact .zero _
  · exact .finite _

theorem mul (notPositive : NotPositive left) (unsigned : Unsigned right) :
    NotPositive (UnpackedFloat.mul .binary64 left right) := by
  cases notPositive with
  | notANumber => exact .notANumber
  | zero sign =>
      cases unsigned with
      | zero => exact .zero _
      | finite => exact .zero _
      | infinity => exact .notANumber
  | finite =>
      cases unsigned with
      | zero => exact .zero _
      | finite => exact roundWithAccuracy _ _ _
      | infinity => exact .infinity
  | infinity =>
      cases unsigned with
      | zero => exact .notANumber
      | finite => exact .infinity
      | infinity => exact .infinity

theorem mul_zero (value : UnpackedFloat) (sign : Sign) :
    NotPositive (UnpackedFloat.mul .binary64 value (.zero sign)) := by
  cases value with
  | notANumber => exact .notANumber
  | zero => exact .zero _
  | finite => exact .zero _
  | infinity => exact .notANumber

theorem div (notPositive : NotPositive left) {significand : Nat} (some : 0 < significand)
    (exponent : Int) :
    NotPositive (UnpackedFloat.div .binary64 left
      (.finite .positive significand exponent some)) := by
  cases notPositive with
  | notANumber => exact .notANumber
  | zero sign => exact .zero _
  | finite => exact roundWithAccuracy _ _ _
  | infinity => exact .infinity

theorem le_packComponents (exponent : BitVec 11) (mantissa : BitVec 52) :
    2 ^ 63 ≤ (UnpackedFloat.packComponents .binary64 .negative exponent mantissa).toNat := by
  unfold UnpackedFloat.packComponents
  rw [BitVec.toNat_append, BitVec.toNat_append, ← Nat.shiftLeft_add_eq_or_of_lt mantissa.isLt,
    ← Nat.shiftLeft_add_eq_or_of_lt exponent.isLt, Nat.shiftLeft_eq]
  simp [Sign.toBitVec]
  omega

theorem pack {value : UnpackedFloat} (notPositive : NotPositive value) {number : Binary64}
    (packed : number.bits.toNat = (UnpackedFloat.pack .binary64 value).toNat) :
    ¬number.IsPositive := by
  rw [IsPositive, packed, infinityPattern_double]
  cases notPositive with
  | notANumber => decide
  | zero sign => cases sign <;> decide
  | @finite significand exponent some =>
      have signed : 2 ^ 63 ≤ (UnpackedFloat.pack .binary64
          (.finite .negative significand exponent some)).toNat := by
        unfold UnpackedFloat.pack
        dsimp only
        split
        · exact le_packComponents _ _
        · split
          · exact le_packComponents _ _
          · exact le_packComponents _ _
      omega
  | infinity => decide

theorem of_placed {value : UnpackedFloat} {rank : Int} (placed : Placed value rank)
    (least : ¬0 < rank) : NotPositive value := by
  cases placed with
  | zero sign => exact .zero sign
  | finite sign some place =>
      have pattern := place.eq
      cases sign with
      | negative => exact .finite some
      | positive =>
          simp only [Sign.apply] at least
          omega
  | infinity sign =>
      cases sign with
      | negative => exact .infinity
      | positive => exact absurd (by decide) least

end NotPositive

/-! ## Operations on what is not positive -/

theorem notPositive_unpack {number : Binary64} (notPositive : ¬number.IsPositive) :
    NotPositive number.toFloat.toModel.unpack := by
  cases isNaN : number.isNaN with
  | true =>
      rw [unpack_of_isNaN isNaN]
      exact .notANumber
  | false =>
      apply NotPositive.of_placed (placed_unpack isNaN)
      intro greater
      exact notPositive (isPositive_iff.mpr ⟨isNaN, greater⟩)

theorem unsigned_unpack {number : Binary64}
    (bounded : number.bits.toNat ≤ BinaryFormat.double.infinityPattern) :
    Unsigned number.toFloat.toModel.unpack := by
  rcases bounded.lt_or_eq with measure | infinite
  · rcases unpack_cases measure with ⟨-, unpack⟩ | ⟨_, _, some, unpack, -⟩
    · rw [unpack]
      exact .zero
    · rw [unpack]
      exact .finite some
  · rw [unpack_of_infinite infinite]
    exact .infinity

section

variable {left operand : Binary64}

theorem divide_not_positive (notPositive : ¬left.IsPositive) (positive : operand.IsPositive)
    (measure : operand.IsMeasure) : ¬(left.divide operand).IsPositive := by
  obtain ⟨_, exponent, some, unpack⟩ := positive.unpack_finite measure
  have value := (notPositive_unpack notPositive).div some exponent
  rw [← unpack] at value
  exact value.pack rfl

theorem multiply_not_positive (notPositive : ¬left.IsPositive)
    (bounded : operand.bits.toNat ≤ BinaryFormat.double.infinityPattern) :
    ¬(left.multiply operand).IsPositive :=
  ((notPositive_unpack notPositive).mul (unsigned_unpack bounded)).pack rfl

theorem multiply_zero (left : Binary64) : ¬(left.multiply zero).IsPositive := by
  have unpack : zero.toFloat.toModel.unpack = .zero .positive := rfl
  have value := NotPositive.mul_zero left.toFloat.toModel.unpack .positive
  rw [← unpack] at value
  exact value.pack rfl

end

end Binary64

end RangeRecall
