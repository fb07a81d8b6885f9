import RangeRecall.Json.Number
import RangeRecall.Proofs.Numeric.DoubleBounds
import RangeRecall.Proofs.Numeric.Narrowing

/-! The doubles that decimals are read as. There are at most two roundings, that of the power of
ten and that of the product or quotient, and small powers of ten are exact. -/

namespace RangeRecall

open BinaryFormat (RoundsTo)

namespace Binary64

variable {number : Binary64} {real : ℚ}

theorem relative_error (rounds : RoundsTo .double real number.bits.toNat)
    (measure : number.IsMeasure) (normal : 2 ^ (-1022 : Int) ≤ real) :
    |number.magnitude - real| * 2 ^ 53 ≤ number.magnitude := by
  refine rounds.relative_error measure (le_trans (by positivity) normal) ?_
  have bound := ge_of_rounds (-1022) rounds le_rfl (by decide) normal
  refine le_of_eq_of_le ?_ bound
  exact BinaryFormat.pow_mul_zpow 52 (-1074)

theorem magnitude_of_rounds {natural : Nat} (rounds : RoundsTo .double natural number.bits.toNat)
    (short : natural < 2 ^ 53) : number.IsMeasure ∧ number.magnitude = natural := by
  have place : (natural : ℚ) =
      natural * 2 ^ (BinaryFormat.double.leastExponent + (1074 : Nat)) := by
    rw [show BinaryFormat.double.leastExponent + (1074 : Nat) = 0 from rfl, zpow_zero, mul_one]
  rw [place] at rounds
  obtain ⟨measure, magnitude⟩ := rounds.exact short (by decide)
  exact ⟨measure, magnitude.trans place.symm⟩

theorem magnitude_ofNat {natural : Nat} (short : natural < 2 ^ 53) :
    (ofNat natural).IsMeasure ∧ (ofNat natural).magnitude = natural :=
  magnitude_of_rounds (ofNat_rounds natural) short

theorem magnitude_powerOfTen {power : Nat} (small : power ≤ 22) :
    (powerOfTen power).magnitude = 10 ^ power := by
  have short : 5 ^ power < 2 ^ 53 :=
    lt_of_le_of_lt (Nat.pow_le_pow_right (by decide) small) (by decide)
  have place : ((tenTo power : Nat) : ℚ) =
      (5 ^ power : Nat) * 2 ^ (BinaryFormat.double.leastExponent + (1074 + power : Nat)) := by
    have exponent : BinaryFormat.double.leastExponent + (1074 + power : Nat) = (power : Int) := by
      rw [show BinaryFormat.double.leastExponent = -1074 from rfl]
      omega
    rw [exponent, zpow_natCast, tenTo_eq]
    push_cast
    rw [← mul_pow]
    norm_num
  have rounds := ofNat_rounds (tenTo power)
  rw [place] at rounds
  refine (rounds.exact short ?_).2.trans ?_
  · change 1074 + power + 2 < 2048
    omega
  · rw [← place, tenTo_eq]
    push_cast
    rfl

theorem tenTo_le {power : Nat} (small : power ≤ 60) : tenTo power ≤ 2 ^ 200 :=
  (Nat.pow_le_pow_right (by decide) small).trans (by decide)

theorem powerOfTen_atMost {power : Nat} (small : power ≤ 60) : AtMost 200 (powerOfTen power) :=
  .ofNat (by decide) (tenTo_le small)

theorem one_le_powerOfTen (power : Nat) : 1 ≤ (powerOfTen power).magnitude := by
  have one := ge_of_rounds 0 (ofNat_rounds (tenTo power)) (by decide) (by decide)
    (by rw [zpow_zero, tenTo_eq]; exact_mod_cast Nat.one_le_pow _ _ (by decide))
  rwa [zpow_zero] at one

theorem powerOfTen_error {power : Nat} (small : power ≤ 60) :
    |(powerOfTen power).magnitude - 10 ^ power| * 2 ^ 53 ≤ (powerOfTen power).magnitude := by
  have rounds := ofNat_rounds (tenTo power)
  rw [tenTo_eq] at rounds
  push_cast at rounds
  refine relative_error rounds (powerOfTen_atMost small).measure
    (le_trans ?_ (one_le_pow₀ (by norm_num)))
  rw [← zpow_zero 2]
  exact zpow_le_zpow_right₀ one_le_two (by decide)

/-- The double is off by about two roundings at most. -/
structure IsNear (number : Binary64) (real : ℚ) : Prop where
  measure : number.IsMeasure
  error : |number.magnitude - real| * (2 ^ 53 - 1) ≤ 2 * number.magnitude

end Binary64

namespace Json

open Binary64 (AtMost IsNear powerOfTen)

variable {significand : Nat} {exponent : Int}

/-! ## Scaling up -/

theorem scaled_of_nonneg (least : 0 ≤ exponent) (greatest : exponent ≤ 60)
    (short : significand ≤ 2 ^ 64) :
    scaled significand exponent =
      .ok ((Binary64.ofNat significand).multiply (powerOfTen exponent.natAbs)) := by
  have product : AtMost 264
      ((Binary64.ofNat significand).multiply (powerOfTen exponent.natAbs)) :=
    AtMost.multiply (.ofNat (by decide) short) (Binary64.powerOfTen_atMost (by omega)) (by decide)
  have table : exponent ≤ 308 := by omega
  simp only [scaled, if_neg (not_lt.mpr least), if_pos table,
    Binary64.isInfinite_of_measure product.measure, Bool.false_eq_true, if_false]

theorem product_near (positive : 0 < significand) (short : significand < 2 ^ 53) {power : Nat}
    (small : power ≤ 60) :
    IsNear ((Binary64.ofNat significand).multiply (powerOfTen power))
      (significand * 10 ^ power) := by
  obtain ⟨measure, exact⟩ := Binary64.magnitude_ofNat short
  have bounded := Binary64.powerOfTen_atMost small
  have rounds := Binary64.multiply_rounds measure bounded.measure
  have powerError := Binary64.powerOfTen_error small
  have one := Binary64.one_le_powerOfTen power
  have onceCast : (1 : ℚ) ≤ significand := by exact_mod_cast positive
  have product : AtMost 264 ((Binary64.ofNat significand).multiply (powerOfTen power)) :=
    AtMost.multiply (.ofNat (by decide) (short.le.trans (by decide))) bounded (by decide)
  rw [exact] at rounds
  have above : (2 : ℚ) ^ (-1022 : Int) ≤ significand * (powerOfTen power).magnitude := by
    refine le_trans (zpow_le_one_of_nonpos₀ one_le_two (by decide)) ?_
    nlinarith
  have error := Binary64.relative_error rounds product.measure above
  refine ⟨product.measure, ?_⟩
  generalize ((Binary64.ofNat significand).multiply (powerOfTen power)).magnitude = result at *
  generalize (powerOfTen power).magnitude = factor at *
  -- One rounding is that of the power of ten, the other one that of the product.
  have through : |result - significand * 10 ^ power| ≤
      |result - significand * factor| + significand * |factor - 10 ^ power| := by
    rw [← abs_of_nonneg (by positivity : (0 : ℚ) ≤ significand), ← abs_mul,
      abs_of_nonneg (by positivity : (0 : ℚ) ≤ significand)]
    refine le_trans (le_of_eq ?_) (abs_add_le _ _)
    congr 1
    ring
  have inner : significand * |factor - 10 ^ power| * 2 ^ 53 ≤ significand * factor := by
    rw [mul_assoc]
    gcongr
  have outer : significand * factor * 2 ^ 53 ≤ result * (2 ^ 53 + 1) := by
    have low := neg_abs_le (result - significand * factor)
    nlinarith
  have nonneg : 0 ≤ result := by nlinarith [abs_nonneg (result - significand * factor)]
  nlinarith

/-! ## Scaling down -/

theorem scaled_of_neg (negative : exponent < 0) (small : exponent.natAbs ≤ 308) :
    scaled significand exponent =
      .ok ((Binary64.ofNat significand).divide (powerOfTen exponent.natAbs)) := by
  rw [scaled, if_pos negative, scaleDown, if_pos small]

theorem exists_scaled_of_neg (significand : Nat) (negative : exponent < 0) :
    ∃ number, scaled significand exponent = .ok number := by
  rw [scaled, if_pos negative]
  exact ⟨_, rfl⟩

theorem divisor_error {real divisor exact : ℚ} (nonneg : 0 ≤ real) (positive : 0 < divisor)
    (exactPositive : 0 < exact) (error : |divisor - exact| * 2 ^ 53 ≤ divisor) :
    |real / divisor - real / exact| * 2 ^ 53 ≤ real / exact := by
  have split : real / divisor - real / exact = real / exact * ((exact - divisor) / divisor) := by
    field_simp
  have quotient : 0 ≤ real / exact := by positivity
  rw [split, abs_mul, abs_of_nonneg quotient, mul_assoc, abs_div, abs_of_pos positive,
    abs_sub_comm]
  refine mul_le_of_le_one_right quotient ?_
  rwa [div_mul_eq_mul_div, div_le_one positive]

theorem quotient_near (positive : 0 < significand) (short : significand < 2 ^ 53) {power : Nat}
    (small : power ≤ 60) :
    IsNear ((Binary64.ofNat significand).divide (powerOfTen power))
      (significand / 10 ^ power) := by
  obtain ⟨measure, exact⟩ := Binary64.magnitude_ofNat short
  have bounded := Binary64.powerOfTen_atMost small
  have powerError := Binary64.powerOfTen_error small
  have one := Binary64.one_le_powerOfTen power
  have rounds := Binary64.divide_rounds measure bounded.measure (by linarith)
  have onceCast : (1 : ℚ) ≤ significand := by exact_mod_cast positive
  have quotient : AtMost (64 + 0) ((Binary64.ofNat significand).divide (powerOfTen power)) :=
    AtMost.divide (.ofNat (by decide) (short.le.trans (by decide))) bounded.measure
      (by linarith) (by decide)
  rw [exact] at rounds
  have above : (2 : ℚ) ^ (-1022 : Int) ≤ significand / (powerOfTen power).magnitude := by
    rw [le_div_iff₀ (by linarith)]
    have bound := bounded.bound
    have tiny : (2 : ℚ) ^ (-1022 : Int) * 2 ^ 200 ≤ 1 := by
      rw [← zpow_natCast, ← zpow_add₀ two_ne_zero]
      exact zpow_le_one_of_nonpos₀ one_le_two (by decide)
    have scale : (0 : ℚ) < 2 ^ (-1022 : Int) := by positivity
    nlinarith
  have error := Binary64.relative_error rounds quotient.measure above
  refine ⟨quotient.measure, ?_⟩
  generalize ((Binary64.ofNat significand).divide (powerOfTen power)).magnitude = result at *
  generalize (powerOfTen power).magnitude = divisor at *
  have positiveDivisor : 0 < divisor := by linarith
  have powers : (0 : ℚ) < 10 ^ power := by positivity
  -- The rounding of the power of ten is carried over to the quotient.
  have through : |result - significand / 10 ^ power| ≤
      |result - significand / divisor| + |significand / divisor - significand / 10 ^ power| := by
    refine le_trans (le_of_eq ?_) (abs_add_le _ _)
    congr 1
    ring
  have inner := divisor_error (by positivity : (0 : ℚ) ≤ significand) positiveDivisor powers
    powerError
  have low := neg_abs_le (result - significand / 10 ^ power)
  linarith

/-! ## Both directions -/

theorem scaled_near (positive : 0 < significand) (short : significand < 2 ^ 53)
    (least : -60 ≤ exponent) (greatest : exponent ≤ 60) :
    ∃ number, scaled significand exponent = .ok number ∧
      IsNear number (significand * 10 ^ exponent) := by
  rcases lt_or_ge exponent 0 with negative | nonneg
  · refine ⟨_, scaled_of_neg negative (by omega), ?_⟩
    have near := quotient_near positive short (show exponent.natAbs ≤ 60 by omega)
    have same : (10 : ℚ) ^ exponent = (10 ^ exponent.natAbs)⁻¹ := by
      rw [← zpow_natCast, ← zpow_neg]
      congr 1
      omega
    rwa [same, ← div_eq_mul_inv]
  · refine ⟨_, scaled_of_nonneg nonneg greatest (short.le.trans (by decide)), ?_⟩
    have near := product_near positive short (show exponent.natAbs ≤ 60 by omega)
    have same : (10 : ℚ) ^ exponent = 10 ^ exponent.natAbs := by
      rw [← zpow_natCast]
      congr 1
      omega
    rwa [same]

theorem scaled_rounds (short : significand < 2 ^ 53) (least : -22 ≤ exponent)
    (greatest : exponent ≤ 22) {number : Binary64}
    (read : scaled significand exponent = .ok number) :
    RoundsTo .double (significand * 10 ^ exponent) number.bits.toNat := by
  obtain ⟨measure, exact⟩ := Binary64.magnitude_ofNat short
  have exactPower := Binary64.magnitude_powerOfTen (show exponent.natAbs ≤ 22 by omega)
  have bounded := Binary64.powerOfTen_atMost (show exponent.natAbs ≤ 60 by omega)
  rcases lt_or_ge exponent 0 with negative | nonneg
  · obtain rfl := Except.ok.inj ((scaled_of_neg negative (by omega)).symm.trans read)
    have rounds := Binary64.divide_rounds measure bounded.measure
      (by rw [exactPower]; positivity)
    have same : (10 : ℚ) ^ exponent = (10 ^ exponent.natAbs)⁻¹ := by
      rw [← zpow_natCast, ← zpow_neg]
      congr 1
      omega
    rwa [exact, exactPower, div_eq_mul_inv, ← same] at rounds
  · obtain rfl := Except.ok.inj ((scaled_of_nonneg nonneg (by omega)
      (short.le.trans (by decide))).symm.trans read)
    have rounds := Binary64.multiply_rounds measure bounded.measure
    have same : (10 : ℚ) ^ exponent = 10 ^ exponent.natAbs := by
      rw [← zpow_natCast]
      congr 1
      omega
    rwa [exact, exactPower, ← same] at rounds

end Json

end RangeRecall
