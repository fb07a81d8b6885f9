import RangeRecall.Proofs.Numeric.Rounding

/-! Doubles as the arithmetic on them packs and rounds them. An operation on two finite numbers
makes the double that is nearest to its exact result. -/

namespace RangeRecall

open Float.Model (Format UnpackedFloat totalExponent)
open Float.Model.UnpackedFloat (Sign Accuracy ExtendedMantissa)
open BinaryFormat (RoundsTo NearestWhole InPlace)

/-! ## Mantissas with residual bits -/

/-- The mantissa is the whole part of a number, and the residual bits tell where the number lies
relative to the half above it. -/
def Describes (extended : ExtendedMantissa) (real : ℚ) : Prop :=
  match extended.roundBit, extended.stickyBit with
  | false, false => real = extended.mantissa
  | false, true => extended.mantissa < real ∧ real < extended.mantissa + 1 / 2
  | true, false => real = extended.mantissa + 1 / 2
  | true, true => extended.mantissa + 1 / 2 < real ∧ real < extended.mantissa + 1

namespace Describes

variable {extended : ExtendedMantissa} {real : ℚ}

theorem exact (mantissa : Nat) :
    Describes (.ofMantissaAndAccuracy mantissa .exact) mantissa := rfl

theorem bounds (describes : Describes extended real) :
    extended.mantissa ≤ real ∧ real < extended.mantissa + 1 := by
  obtain ⟨mantissa, roundBit, stickyBit⟩ := extended
  cases roundBit <;> cases stickyBit <;> simp only [Describes] at describes ⊢ <;>
    constructor <;> linarith

theorem shiftRightOne (describes : Describes extended real) :
    Describes extended.shiftRightOne (real / 2) := by
  obtain ⟨mantissa, roundBit, stickyBit⟩ := extended
  have whole : (mantissa : ℚ) = 2 * (mantissa / 2 : Nat) + (mantissa % 2 : Nat) := by
    exact_mod_cast (Nat.div_add_mod mantissa 2).symm
  rcases Nat.mod_two_eq_zero_or_one mantissa with parity | parity <;>
    cases roundBit <;> cases stickyBit <;>
    simp only [Describes, ExtendedMantissa.shiftRightOne, parity, Nat.reduceBneDiff,
      bne_self_eq_false, Bool.or_false, Bool.or_true, Nat.cast_zero, Nat.cast_one]
      at describes whole ⊢ <;>
    first | (constructor <;> linarith) | linarith

theorem shiftRight (describes : Describes extended real) (places : Nat) :
    Describes (extended >>> places) (real / 2 ^ places) := by
  induction places with
  | zero =>
      rw [pow_zero, div_one]
      exact describes
  | succ places induction =>
      rw [pow_succ, ← div_div]
      exact induction.shiftRightOne

theorem nearestWhole (describes : Describes extended real) :
    NearestWhole real extended.roundedMantissa := by
  obtain ⟨mantissa, roundBit, stickyBit⟩ := extended
  cases roundBit <;> cases stickyBit <;>
    simp only [Describes, ExtendedMantissa.roundedMantissa, ExtendedMantissa.accuracy,
      Accuracy.roundToNearestEven] at describes ⊢
  · exact ⟨.inl (by linarith), .inl (by linarith)⟩
  · exact ⟨.inl (by linarith), .inl (by linarith)⟩
  · rcases Nat.mod_two_eq_zero_or_one mantissa with parity | parity
    · rw [parity]
      exact ⟨.inl (by push_cast; linarith), .inr ⟨by push_cast; linarith, by omega⟩⟩
    · rw [parity]
      exact ⟨.inr ⟨by push_cast; linarith, by omega⟩, .inl (by push_cast; linarith)⟩
  · exact ⟨.inl (by push_cast; linarith), .inl (by push_cast; linarith)⟩

end Describes

/-! ## Packing -/

theorem infinityPattern_double : BinaryFormat.double.infinityPattern = 2047 * 2 ^ 52 := rfl

theorem toNat_packComponents (exponent : BitVec 11) (mantissa : BitVec 52) :
    (UnpackedFloat.packComponents .binary64 .positive exponent mantissa).toNat =
      exponent.toNat * 2 ^ 52 + mantissa.toNat := by
  unfold UnpackedFloat.packComponents
  rw [BitVec.toNat_append, BitVec.toNat_append, ← Nat.shiftLeft_add_eq_or_of_lt mantissa.isLt,
    ← Nat.shiftLeft_add_eq_or_of_lt exponent.isLt, Nat.shiftLeft_eq]
  simp [Sign.toBitVec]

theorem log2_full_iff {significand : Nat} (positive : 0 < significand)
    (bounded : significand < 2 ^ 53) : significand.log2 + 1 = 53 ↔ 2 ^ 52 ≤ significand := by
  have least := @Nat.le_log2 _ 52 positive.ne'
  have most := (Nat.log2_lt positive.ne').mpr bounded
  omega

theorem toNat_pack {pattern steps significand : Nat} (positive : 0 < significand)
    (place : InPlace .double pattern steps significand) :
    (UnpackedFloat.pack .binary64
      (.finite .positive significand (-1074 + steps) positive)).toNat =
        min pattern BinaryFormat.double.infinityPattern := by
  obtain ⟨rfl, bounded, normal⟩ := place
  have biased : ((-1074 + steps : Int) + Format.binary64.exponentBias +
      Format.binary64.mantissaBitsWithoutImplicit).toNat = steps + 1 := by
    change ((-1074 + steps : Int) + 1023 + 52).toNat = steps + 1
    omega
  unfold UnpackedFloat.pack
  simp only [biased]
  change significand < 2 ^ 53 at bounded
  change steps = 0 ∨ 2 ^ 52 ≤ significand at normal
  change _ = min (steps * 2 ^ 52 + significand) _
  rw [infinityPattern_double]
  split
  · rename_i large
    have many : 2046 ≤ steps := by
      change 2 ^ 11 ≤ steps + 1 + 1 at large
      omega
    rw [min_eq_right (by omega)]
    rfl
  · rename_i small
    have few : steps < 2046 := by
      change ¬2 ^ 11 ≤ steps + 1 + 1 at small
      omega
    rw [min_eq_left (by omega)]
    split
    · rename_i full
      have least : 2 ^ 52 ≤ significand := (log2_full_iff positive bounded).mp full
      rw [toNat_packComponents, BitVec.toNat_ofNat, BitVec.toNat_ofNat]
      change (steps + 1) % 2 ^ 11 * 2 ^ 52 + significand % 2 ^ 52 = _
      omega
    · rename_i short
      have less : ¬2 ^ 52 ≤ significand := mt (log2_full_iff positive bounded).mpr short
      rw [toNat_packComponents, BitVec.toNat_ofNat]
      change 0 * 2 ^ 52 + significand % 2 ^ 52 = _
      omega

/-! ## Rounding -/

theorem targetExponent_eq (total : Int) :
    Format.binary64.targetExponent total = max (total - 53) (-1074) := by
  have precision : (Format.binary64.mantissaBits : Int) = 53 := rfl
  have least : Format.binary64.minExponent = -1074 := by decide
  rw [Format.targetExponent, precision, least]

theorem shiftToTargetExponent_eq (mantissa : Nat) (exponent : Int) (accuracy : Accuracy)
    {places : Nat} (shift : (max ((mantissa.log2 : Int) + exponent - 52) (-1074) -
      exponent).toNat = places) :
    UnpackedFloat.shiftToTargetExponent .binary64 mantissa exponent accuracy =
      (ExtendedMantissa.ofMantissaAndAccuracy mantissa accuracy >>> places,
        exponent + places) := by
  have target : (Format.binary64.targetExponent (totalExponent mantissa exponent) -
      exponent).toNat = places := by
    rw [targetExponent_eq, totalExponent, ← shift]
    congr 2
    omega
  simp only [UnpackedFloat.shiftToTargetExponent, UnpackedFloat.shiftToExponent, target]

def unrounded (sign : Sign) (shifted : ExtendedMantissa × Int) : UnpackedFloat :=
  if zero : shifted.1.mantissa = 0 then .zero sign
  else .finite sign shifted.1.mantissa shifted.2 (Nat.pos_of_ne_zero zero)

theorem roundWithAccuracy_eq (sign : Sign) (mantissa : Nat) (exponent : Int)
    (accuracy : Accuracy) :
    UnpackedFloat.roundWithAccuracy .binary64 sign mantissa exponent accuracy =
      let shifted := UnpackedFloat.shiftToTargetExponent .binary64 mantissa exponent accuracy
      unrounded sign
        (UnpackedFloat.shiftToTargetExponent .binary64 shifted.1.roundedMantissa shifted.2
          .exact) := rfl

theorem unrounded_of_pos (sign : Sign) {shifted : ExtendedMantissa × Int}
    (positive : 0 < shifted.1.mantissa) :
    unrounded sign shifted = .finite sign shifted.1.mantissa shifted.2 positive :=
  dif_neg positive.ne'

theorem toNat_pack_rounded {mantissa exponent : _} {accuracy : Accuracy} {places steps : Nat}
    (shift : (max ((mantissa.log2 : Int) + exponent - 52) (-1074) - exponent).toNat = places)
    (reached : exponent + places = -1074 + steps)
    (fits : (ExtendedMantissa.ofMantissaAndAccuracy mantissa accuracy >>>
      places).roundedMantissa ≤ 2 ^ 53)
    (normal : steps = 0 ∨ 2 ^ 52 ≤ (ExtendedMantissa.ofMantissaAndAccuracy mantissa accuracy >>>
      places).roundedMantissa) :
    (UnpackedFloat.pack .binary64
      (UnpackedFloat.roundWithAccuracy .binary64 .positive mantissa exponent accuracy)).toNat =
        min (steps * 2 ^ 52 + (ExtendedMantissa.ofMantissaAndAccuracy mantissa accuracy >>>
          places).roundedMantissa) BinaryFormat.double.infinityPattern := by
  rw [roundWithAccuracy_eq, shiftToTargetExponent_eq mantissa exponent accuracy shift]
  simp only [reached]
  generalize (ExtendedMantissa.ofMantissaAndAccuracy mantissa accuracy >>>
    places).roundedMantissa = significand at fits normal ⊢
  rcases fits.lt_or_eq with short | rfl
  · have log : significand.log2 ≤ 52 := by
      rcases Nat.eq_zero_or_pos significand with rfl | positive
      · decide
      · exact Nat.le_of_lt_succ ((Nat.log2_lt positive.ne').mpr short)
    rw [@shiftToTargetExponent_eq significand _ .exact 0 (by omega)]
    rcases Nat.eq_zero_or_pos significand with rfl | positive
    · obtain rfl : steps = 0 := by omega
      rfl
    · rw [unrounded_of_pos .positive positive, Int.natCast_zero, Int.add_zero]
      exact toNat_pack positive ⟨rfl, short, normal⟩
  · have same : steps * 2 ^ 52 + 2 ^ 53 = (steps + 1) * 2 ^ 52 + 2 ^ 52 := by omega
    rw [@shiftToTargetExponent_eq (2 ^ 53) _ .exact 1 (by rw [Nat.log2_two_pow]; omega),
      unrounded_of_pos .positive (Nat.pow_pos two_pos : 0 < 2 ^ 52), same, add_assoc]
    have place : InPlace .double ((steps + 1) * 2 ^ 52 + 2 ^ 52) (steps + 1) (2 ^ 52) :=
      ⟨rfl, by decide, .inr le_rfl⟩
    exact toNat_pack _ place

theorem fits_target {mantissa steps : Nat} {exponent : Int} {real : ℚ}
    (low : mantissa * 2 ^ exponent ≤ real) (high : real < (mantissa + 1) * 2 ^ exponent)
    (target : max ((mantissa.log2 : Int) + exponent - 52) (-1074) = -1074 + steps)
    (enough : exponent ≤ -1074 + steps) :
    real < 2 ^ (52 + 1) * 2 ^ (-1074 + steps : Int) ∧
      (steps = 0 ∨ 2 ^ 52 * 2 ^ (-1074 + steps : Int) ≤ real) := by
  constructor
  · have most : ((mantissa : ℚ) + 1) ≤ 2 ^ (mantissa.log2 + 1) := by
      exact_mod_cast Nat.lt_log2_self (n := mantissa)
    calc real < (mantissa + 1) * 2 ^ exponent := high
      _ ≤ 2 ^ (mantissa.log2 + 1) * 2 ^ exponent := by gcongr
      _ ≤ 2 ^ (52 + 1) * 2 ^ (-1074 + steps : Int) := by
        rw [BinaryFormat.pow_mul_zpow, BinaryFormat.pow_mul_zpow]
        refine zpow_le_zpow_right₀ (by norm_num) ?_
        push_cast
        omega
  · rcases Nat.eq_zero_or_pos steps with zero | inner
    · exact .inl zero
    · right
      have nonzero : mantissa ≠ 0 := by
        rintro rfl
        rw [Nat.log2_zero] at target
        omega
      have least : (2 : ℚ) ^ mantissa.log2 ≤ mantissa := by
        exact_mod_cast Nat.log2_self_le nonzero
      calc (2 : ℚ) ^ 52 * 2 ^ (-1074 + steps : Int) = 2 ^ mantissa.log2 * 2 ^ exponent := by
            rw [BinaryFormat.pow_mul_zpow, BinaryFormat.pow_mul_zpow]
            congr 1
            push_cast
            omega
        _ ≤ mantissa * 2 ^ exponent := by gcongr
        _ ≤ real := low

theorem pack_roundWithAccuracy {mantissa : Nat} {exponent : Int} {accuracy : Accuracy} {real : ℚ}
    (describes : Describes (.ofMantissaAndAccuracy mantissa accuracy) (real / 2 ^ exponent))
    (low : exponent ≤ max ((mantissa.log2 : Int) + exponent - 52) (-1074)) :
    RoundsTo .double real (UnpackedFloat.pack .binary64
      (UnpackedFloat.roundWithAccuracy .binary64 .positive mantissa exponent accuracy)).toNat := by
  obtain ⟨steps, target⟩ : ∃ steps : Nat,
      max ((mantissa.log2 : Int) + exponent - 52) (-1074) = -1074 + steps :=
    ⟨(max ((mantissa.log2 : Int) + exponent - 52) (-1074) + 1074).toNat, by omega⟩
  obtain ⟨places, shift⟩ : ∃ places : Nat,
      max ((mantissa.log2 : Int) + exponent - 52) (-1074) - exponent = places :=
    ⟨_, (Int.toNat_of_nonneg (by omega)).symm⟩
  have reached : exponent + places = -1074 + steps := by omega
  have unit : (0 : ℚ) < 2 ^ exponent := by positivity
  have same : (ExtendedMantissa.ofMantissaAndAccuracy mantissa accuracy).mantissa = mantissa := by
    rcases accuracy with _ | (_ | _ | _) <;> rfl
  have bounds := describes.bounds
  rw [same, le_div_iff₀ unit, div_lt_iff₀ unit] at bounds
  obtain ⟨bounded, normal⟩ := fits_target bounds.1 bounds.2 target (target ▸ low)
  have shifted : NearestWhole (real / 2 ^ (-1074 + steps : Int))
      (ExtendedMantissa.ofMantissaAndAccuracy mantissa accuracy >>> places).roundedMantissa := by
    have located := (describes.shiftRight places).nearestWhole
    rwa [div_div, ← zpow_natCast, ← zpow_add₀ two_ne_zero, reached] at located
  have scale : (0 : ℚ) < 2 ^ (-1074 + steps : Int) := by positivity
  rw [toNat_pack_rounded (by omega) reached
    (shifted.le (by push_cast; rwa [div_lt_iff₀ scale]))
    (normal.imp_right fun large => shifted.ge (by push_cast; rwa [le_div_iff₀ scale]))]
  exact BinaryFormat.roundsTo_place (by decide) bounded normal shifted

/-! ## Operations on finite numbers -/

section

variable {left right : Nat} {leftExponent rightExponent : Int}

theorem pack_mul (leftPositive : 0 < left) (rightPositive : 0 < right)
    (leftFull : leftExponent ≤ -1074 ∨ 52 ≤ left.log2)
    (rightFull : rightExponent ≤ -1074 ∨ 52 ≤ right.log2) :
    RoundsTo .double (left * 2 ^ leftExponent * (right * 2 ^ rightExponent))
      (UnpackedFloat.pack .binary64 (UnpackedFloat.mul .binary64
        (.finite .positive left leftExponent leftPositive)
        (.finite .positive right rightExponent rightPositive))).toNat := by
  refine pack_roundWithAccuracy ?_ ?_
  · have product : (left * 2 ^ leftExponent * (right * 2 ^ rightExponent) : ℚ) /
        2 ^ (leftExponent + rightExponent) = (left * right : Nat) := by
      rw [zpow_add₀ two_ne_zero]
      push_cast
      field_simp
    rw [product]
    exact .exact _
  · have nonzero := (Nat.mul_pos leftPositive rightPositive).ne'
    have leftLog : left.log2 ≤ (left * right).log2 := (Nat.le_log2 nonzero).mpr
      ((Nat.log2_self_le leftPositive.ne').trans (Nat.le_mul_of_pos_right left rightPositive))
    have rightLog : right.log2 ≤ (left * right).log2 := (Nat.le_log2 nonzero).mpr
      ((Nat.log2_self_le rightPositive.ne').trans (Nat.le_mul_of_pos_left right leftPositive))
    omega

theorem describes_quotient (numerator : Nat) {denominator : Nat} (positive : 0 < denominator) :
    Describes (.ofMantissaAndAccuracy (numerator / denominator)
      (UnpackedFloat.accuracyOfFraction (numerator % denominator) denominator))
      (numerator / denominator) := by
  have scale : (0 : ℚ) < denominator := by exact_mod_cast positive
  have less := BinaryFormat.fraction_lt_one (Nat.mod_lt numerator positive)
  rw [BinaryFormat.quotient_eq_add numerator positive]
  generalize numerator / denominator = quotient at *
  generalize numerator % denominator = remainder at *
  unfold UnpackedFloat.accuracyOfFraction
  split
  · rename_i zero
    rw [zero, Nat.cast_zero, zero_div, add_zero]
    exact .exact quotient
  · rename_i nonzero
    have some : (0 : ℚ) < remainder := by exact_mod_cast Nat.pos_of_ne_zero nonzero
    have part : (0 : ℚ) < remainder / denominator := by positivity
    rcases compared : compare (2 * remainder) denominator
    · have low := (BinaryFormat.lt_half_iff positive).mpr (Nat.compare_eq_lt.mp compared)
      exact ⟨by simp [ExtendedMantissa.ofMantissaAndAccuracy]; linarith,
        by simp [ExtendedMantissa.ofMantissaAndAccuracy]; linarith⟩
    · rw [(BinaryFormat.eq_half_iff positive).mpr (Nat.compare_eq_eq.mp compared)]
      rfl
    · have high := (BinaryFormat.half_lt_iff positive).mpr (Nat.compare_eq_gt.mp compared)
      exact ⟨by simp [ExtendedMantissa.ofMantissaAndAccuracy]; linarith,
        by simp [ExtendedMantissa.ofMantissaAndAccuracy]; linarith⟩

theorem pack_div (leftPositive : 0 < left) (rightPositive : 0 < right) :
    RoundsTo .double (left * 2 ^ leftExponent / (right * 2 ^ rightExponent))
      (UnpackedFloat.pack .binary64 (UnpackedFloat.div .binary64
        (.finite .positive left leftExponent leftPositive)
        (.finite .positive right rightExponent rightPositive))).toNat := by
  -- The dividend is shifted until the quotient fills its place, unless that is the least one.
  obtain ⟨exponent, shift, target, places, enough⟩ : ∃ (exponent : Int) (shift : Nat),
      min (leftExponent - rightExponent) (Format.binary64.targetExponent
        (totalExponent left leftExponent - totalExponent right rightExponent)) = exponent ∧
      leftExponent - rightExponent - exponent = shift ∧
      (exponent ≤ -1074 ∨ right.log2 + 53 ≤ left.log2 + shift) := by
    rw [targetExponent_eq, totalExponent, totalExponent]
    refine ⟨_, _, rfl, (Int.toNat_of_nonneg (by omega)).symm, by omega⟩
  have divided : UnpackedFloat.divCore .binary64 left leftExponent right rightExponent =
      (left <<< shift / right, exponent,
        UnpackedFloat.accuracyOfFraction (left <<< shift % right) right) := by
    simp only [UnpackedFloat.divCore, target, places, Int.toNat_natCast]
  unfold UnpackedFloat.div
  simp only [divided]
  refine pack_roundWithAccuracy ?_ ?_
  · have quotient : (left * 2 ^ leftExponent / (right * 2 ^ rightExponent) : ℚ) / 2 ^ exponent =
        (left <<< shift : Nat) / right := by
      have same : leftExponent = rightExponent + exponent + shift := by omega
      rw [same, zpow_add₀ two_ne_zero, zpow_add₀ two_ne_zero, Nat.shiftLeft_eq, zpow_natCast]
      push_cast
      field_simp
    rw [quotient]
    exact describes_quotient _ rightPositive
  · rcases enough with low | long
    · omega
    · have least : 2 ^ 52 ≤ left <<< shift / right := by
        rw [Nat.le_div_iff_mul_le rightPositive, Nat.shiftLeft_eq]
        calc 2 ^ 52 * right ≤ 2 ^ 52 * 2 ^ (right.log2 + 1) :=
              Nat.mul_le_mul_left _ Nat.lt_log2_self.le
          _ = 2 ^ (right.log2 + 53) := by ring
          _ ≤ 2 ^ (left.log2 + shift) := Nat.pow_le_pow_right two_pos long
          _ = 2 ^ left.log2 * 2 ^ shift := pow_add 2 _ _
          _ ≤ left * 2 ^ shift := Nat.mul_le_mul_right _ (Nat.log2_self_le leftPositive.ne')
      have full := (Nat.le_log2 (by omega)).mpr least
      omega

theorem pack_round {mantissa : Nat} (positive : 0 < mantissa) (exponent : Int) :
    RoundsTo .double (mantissa * 2 ^ exponent)
      (UnpackedFloat.pack .binary64
        (UnpackedFloat.round .binary64 .positive mantissa exponent)).toNat := by
  obtain ⟨shift, places⟩ : ∃ shift : Nat, (exponent - Format.binary64.targetExponent
      (totalExponent mantissa exponent)).toNat = shift := ⟨_, rfl⟩
  unfold UnpackedFloat.round
  simp only [UnpackedFloat.decreaseExponent, places]
  rw [targetExponent_eq, totalExponent] at places
  refine pack_roundWithAccuracy ?_ ?_
  · have shifted : (mantissa * 2 ^ exponent : ℚ) / 2 ^ (exponent - shift : Int) =
        (mantissa <<< shift : Nat) := by
      rw [zpow_sub₀ two_ne_zero, Nat.shiftLeft_eq, zpow_natCast]
      push_cast
      field_simp
    rw [shifted]
    exact .exact _
  · have log : (mantissa <<< shift).log2 = mantissa.log2 + shift := by
      rw [Nat.shiftLeft_eq, Nat.log2_eq_iff (by positivity), add_right_comm, pow_add, pow_add]
      exact ⟨Nat.mul_le_mul_right _ (Nat.log2_self_le positive.ne'),
        Nat.mul_lt_mul_of_pos_right Nat.lt_log2_self (by positivity)⟩
    omega

theorem pack_add (leftPositive : 0 < left) (rightPositive : 0 < right) :
    RoundsTo .double (left * 2 ^ leftExponent + right * 2 ^ rightExponent)
      (UnpackedFloat.pack .binary64 (UnpackedFloat.add .binary64
        (.finite .positive left leftExponent leftPositive)
        (.finite .positive right rightExponent rightPositive))).toNat := by
  obtain ⟨least, leftShift, rightShift, smaller, leftPlaces, rightPlaces⟩ :
      ∃ (least : Int) (leftShift rightShift : Nat), min leftExponent rightExponent = least ∧
        leftExponent - least = leftShift ∧ rightExponent - least = rightShift :=
    ⟨_, _, _, rfl, (Int.toNat_of_nonneg (by omega)).symm, (Int.toNat_of_nonneg (by omega)).symm⟩
  have sum : (left * 2 ^ leftExponent + right * 2 ^ rightExponent : ℚ) =
      (left <<< leftShift + right <<< rightShift : Nat) * 2 ^ least := by
    obtain rfl : leftExponent = leftShift + least := by omega
    obtain rfl : rightExponent = rightShift + least := by omega
    rw [← BinaryFormat.pow_mul_zpow, ← BinaryFormat.pow_mul_zpow, Nat.shiftLeft_eq,
      Nat.shiftLeft_eq]
    push_cast
    ring
  have positive : 0 < left <<< leftShift + right <<< rightShift := by
    rw [Nat.shiftLeft_eq]
    exact Nat.add_pos_left (Nat.mul_pos leftPositive (Nat.two_pow_pos _)) _
  have compared : compare ((left <<< leftShift + right <<< rightShift : Nat) : Int) 0 = .gt :=
    compare_gt_iff_gt.mpr (by omega)
  unfold UnpackedFloat.add
  simp only [UnpackedFloat.decreaseExponent, smaller, leftPlaces, rightPlaces, Int.toNat_natCast,
    Sign.apply, ← Int.natCast_add, UnpackedFloat.normalize, compared]
  rw [sum]
  exact pack_round positive _

end

end RangeRecall
