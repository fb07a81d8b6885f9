import Mathlib
import RangeRecall.Proofs.Numeric.Rounding

/-! How near a short decimal can come to a midpoint of single-precision numbers. A midpoint is an
odd number of binary units. For each pair of a decimal and a binary unit there is a fraction close
to their ratio that shows that no multiple of the one is very near to an odd multiple of the other.
The fractions are convergents of the ratio, and they are found and checked by computation. -/

namespace RangeRecall

namespace Separation

/-- Numbers are near if they differ by less than one part in so many. -/
def fineness : Nat := 4503599627370494

def longest : Nat := 33554432

/-- A decimal and a binary unit by their ratio `numerator / denominator`. -/
structure Units where
  numerator : Nat
  denominator : Nat
  mayMeet : Bool
  isExempt : Nat → Bool

namespace Units

variable {units : Units} {upper lower count odd : Nat}

def miss (units : Units) (upper lower : Nat) : Nat :=
  (lower * units.numerator - upper * units.denominator) +
    (upper * units.denominator - lower * units.numerator)

def greatest (units : Units) : Nat :=
  longest * units.denominator / units.numerator

/-- Whether a fraction is so close to the ratio that only it can bring multiples together. -/
def isClose (units : Units) (upper lower : Nat) : Bool :=
  Nat.blt (fineness * units.greatest * units.miss upper lower +
    lower * longest * units.denominator) (fineness * units.denominator)

/-- Whether no multiple of a close fraction is a counterexample. -/
def isHarmless (units : Units) (upper lower : Nat) : Bool :=
  Nat.blt units.greatest lower || upper % 2 == 0 ||
    Nat.blt (upper * units.denominator) (fineness * units.miss upper lower) ||
    (units.miss upper lower == 0 && units.mayMeet) ||
    (Nat.blt units.greatest (2 * lower) && units.isExempt lower)

def isCertificate (units : Units) (upper lower : Nat) : Bool :=
  units.isClose upper lower && Nat.gcd upper lower == 1 && units.isHarmless upper lower

/-- Runs through the convergents of the ratio, of which the last two are given together with
what remains of the ratio. -/
def search (units : Units) :
    (limit : Nat) → (rest part upper lower nextUpper nextLower : Nat) → Bool
  | 0, _, _, _, _, _, _ => false
  | limit + 1, rest, part, upper, lower, nextUpper, nextLower =>
    if part = 0 then false
    else
      let whole := rest / part
      units.isCertificate (whole * nextUpper + upper) (whole * nextLower + lower) ||
        units.search limit part (rest % part) nextUpper nextLower
          (whole * nextUpper + upper) (whole * nextLower + lower)

def isCertified (units : Units) : Bool :=
  units.search 60 units.numerator units.denominator 0 1 1 0

theorem exists_certificate_of_search
    {limit rest part upperStart lowerStart nextUpper nextLower : Nat}
    (found : units.search limit rest part upperStart lowerStart nextUpper nextLower = true) :
    ∃ upper lower, units.isCertificate upper lower = true := by
  induction limit generalizing rest part upperStart lowerStart nextUpper nextLower with
  | zero => cases found
  | succ limit ih =>
      rw [search] at found
      split at found
      · cases found
      · rcases Bool.or_eq_true_iff.mp found with here | later
        · exact ⟨_, _, here⟩
        · exact ih later

/-! ## What a certificate shows -/

theorem cast_miss (units : Units) (upper lower : Nat) :
    (units.miss upper lower : ℤ) = |(lower * units.numerator : ℤ) - upper * units.denominator| := by
  rw [miss]
  rcases le_total (lower * units.numerator) (upper * units.denominator) with less | greater
  · rw [Nat.sub_eq_zero_of_le less, Nat.zero_add, abs_of_nonpos, Nat.cast_sub less]
    · push_cast
      ring
    · rw [sub_nonpos]
      exact_mod_cast less
  · rw [Nat.sub_eq_zero_of_le greater, Nat.add_zero, abs_of_nonneg, Nat.cast_sub greater]
    · push_cast
      rfl
    · rw [sub_nonneg]
      exact_mod_cast greater

def AreNear (units : Units) (count odd : Nat) : Prop :=
  |(count * units.numerator : ℤ) - odd * units.denominator| * fineness ≤ odd * units.denominator

theorem areNear_iff_miss : units.AreNear lower upper ↔
    fineness * units.miss upper lower ≤ upper * units.denominator := by
  rw [AreNear, ← cast_miss, mul_comm]
  exact_mod_cast Iff.rfl

theorem AreNear.of_mul {times : Nat} (near : units.AreNear (lower * times) (upper * times))
    (some : 0 < times) : units.AreNear lower upper := by
  have split : ((lower * times : Nat) * units.numerator : ℤ) -
      (upper * times : Nat) * units.denominator =
      times * ((lower * units.numerator : ℤ) - upper * units.denominator) := by
    push_cast
    ring
  have someCast : (0 : ℤ) < times := by exact_mod_cast some
  rw [AreNear, split, abs_mul, Nat.abs_cast, mul_assoc, Nat.cast_mul, mul_comm (upper : ℤ) times,
    mul_assoc] at near
  exact le_of_mul_le_mul_left near someCast

theorem AreNear.le_greatest (near : units.AreNear count odd) (denominators : 0 < units.denominator)
    (numerators : 0 < units.numerator) (short : odd < longest) : count ≤ units.greatest := by
  rw [greatest, Nat.le_div_iff_mul_le numerators]
  have distance : ((count * units.numerator : ℤ) - odd * units.denominator) * fineness ≤
      odd * units.denominator :=
    le_trans (mul_le_mul_of_nonneg_right (le_abs_self _) (by positivity)) near
  have shortCast : (odd : ℤ) + 1 ≤ longest := by exact_mod_cast short
  have positive : (0 : ℤ) < units.denominator := by exact_mod_cast denominators
  have step : (odd : ℤ) * units.denominator + units.denominator ≤ longest * units.denominator := by
    nlinarith
  have large : (odd : ℤ) * units.denominator ≤ units.denominator * fineness := by
    have : (odd : ℤ) ≤ fineness := by rw [longest] at shortCast; rw [fineness]; omega
    nlinarith
  have total : (count * units.numerator : ℤ) * fineness ≤
      (longest * units.denominator : ℤ) * fineness := by
    nlinarith
  have bound : (count * units.numerator : ℤ) ≤ longest * units.denominator :=
    le_of_mul_le_mul_right total (by decide)
  exact_mod_cast bound

theorem cross_le (units : Units) (count odd upper lower : Nat) :
    |((count * upper : ℤ) - odd * lower)| * units.denominator ≤
      count * units.miss upper lower +
        lower * |(count * units.numerator : ℤ) - odd * units.denominator| := by
  have split : ((count * upper : ℤ) - odd * lower) * units.denominator =
      lower * ((count * units.numerator : ℤ) - odd * units.denominator) -
        count * ((lower * units.numerator : ℤ) - upper * units.denominator) := by
    ring
  calc |((count * upper : ℤ) - odd * lower)| * units.denominator
      = |((count * upper : ℤ) - odd * lower) * units.denominator| := by
        rw [abs_mul, Nat.abs_cast]
    _ ≤ |(lower * ((count * units.numerator : ℤ) - odd * units.denominator))| +
          |(count * ((lower * units.numerator : ℤ) - upper * units.denominator))| := by
        rw [split]
        exact abs_sub _ _
    _ = _ := by
        rw [abs_mul, abs_mul, Nat.abs_cast, Nat.abs_cast, cast_miss, add_comm]

/-- Near multiples are in the ratio of a close fraction. -/
theorem AreNear.same_ratio (near : units.AreNear count odd) (denominators : 0 < units.denominator)
    (numerators : 0 < units.numerator) (short : odd < longest)
    (close : units.isClose upper lower = true) : count * upper = odd * lower := by
  have few := near.le_greatest denominators numerators short
  have positive : (0 : ℤ) < units.denominator := by exact_mod_cast denominators
  have closeCast : (fineness * units.greatest * units.miss upper lower +
      lower * longest * units.denominator : ℤ) < fineness * units.denominator := by
    exact_mod_cast Nat.blt_eq.mp close
  have nearCast : |(count * units.numerator : ℤ) - odd * units.denominator| * fineness ≤
      odd * units.denominator := near
  have fewCast : (count : ℤ) * units.miss upper lower ≤
      units.greatest * units.miss upper lower := by
    exact_mod_cast Nat.mul_le_mul_right _ few
  have shortCast : (odd : ℤ) * units.denominator ≤ longest * units.denominator := by
    exact_mod_cast Nat.mul_le_mul_right _ short.le
  -- The cross products are whole numbers, so they are equal if they differ by less than one.
  have scaled : |((count * upper : ℤ) - odd * lower)| * (units.denominator * fineness) <
      1 * (units.denominator * fineness) := by
    have lowers : (0 : ℤ) ≤ lower := Int.natCast_nonneg lower
    have fine : (0 : ℤ) ≤ fineness := Int.natCast_nonneg fineness
    calc |((count * upper : ℤ) - odd * lower)| * (units.denominator * fineness)
        = |((count * upper : ℤ) - odd * lower)| * units.denominator * fineness := by ring
      _ ≤ (count * units.miss upper lower +
            lower * |(count * units.numerator : ℤ) - odd * units.denominator|) * fineness :=
          mul_le_mul_of_nonneg_right (units.cross_le count odd upper lower) fine
      _ = count * units.miss upper lower * fineness +
            lower * (|(count * units.numerator : ℤ) - odd * units.denominator| * fineness) := by
          ring
      _ ≤ units.greatest * units.miss upper lower * fineness +
            lower * (longest * units.denominator) :=
          add_le_add (mul_le_mul_of_nonneg_right fewCast fine)
            (mul_le_mul_of_nonneg_left (nearCast.trans shortCast) lowers)
      _ < 1 * (units.denominator * fineness) := by linarith
  have less := lt_of_mul_lt_mul_right scaled (by positivity)
  exact_mod_cast sub_eq_zero.mp (Int.abs_lt_one_iff.mp less)

theorem AreNear.meet_or_exempt (near : units.AreNear count odd)
    (denominators : 0 < units.denominator) (numerators : 0 < units.numerator)
    (short : odd < longest) (positive : 0 < count) (notEven : odd % 2 = 1)
    (certificate : units.isCertificate upper lower = true) :
    (units.mayMeet = true ∧ count * units.numerator = odd * units.denominator) ∨
      units.isExempt count = true := by
  simp only [isCertificate, Bool.and_eq_true, beq_iff_eq] at certificate
  obtain ⟨⟨close, coprime⟩, harmless⟩ := certificate
  have few := near.le_greatest denominators numerators short
  have ratio := near.same_ratio denominators numerators short close
  obtain ⟨times, rfl⟩ : lower ∣ count :=
    (Nat.Coprime.symm coprime).dvd_of_dvd_mul_right ⟨odd, by rw [ratio, Nat.mul_comm]⟩
  have lowers : 0 < lower := Nat.pos_of_mul_pos_right positive
  have some : 0 < times := Nat.pos_of_mul_pos_left positive
  obtain rfl : odd = upper * times := by
    refine Nat.eq_of_mul_eq_mul_right lowers ?_
    rw [← ratio]
    ring
  simp only [isHarmless, Bool.or_eq_true, Bool.and_eq_true, beq_iff_eq, Nat.blt_eq] at harmless
  rcases harmless with (((tooLong | even) | far) | ⟨meets, may⟩) | ⟨single, exempt⟩
  · nlinarith
  · rw [Nat.mul_mod, even, Nat.zero_mul] at notEven
    cases notEven
  · exact absurd (areNear_iff_miss.mp (near.of_mul some)) (Nat.not_le.mpr far)
  · left
    refine ⟨may, ?_⟩
    have missCast := units.cast_miss upper lower
    rw [meets, Nat.cast_zero, eq_comm, abs_eq_zero, sub_eq_zero] at missCast
    have same : lower * units.numerator = upper * units.denominator := by exact_mod_cast missCast
    rw [Nat.mul_right_comm, same, Nat.mul_right_comm]
  · right
    obtain rfl : times = 1 := by nlinarith
    rwa [Nat.mul_one]

/-! ## Powers of ten and of two -/

def ofPowers (power exponent : Int) : Units where
  numerator := tenTo power.toNat * twoTo (-exponent).toNat
  denominator := tenTo (-power).toNat * twoTo exponent.toNat
  mayMeet := decide (-22 ≤ power) && decide (power ≤ 22)
  isExempt count := power == -32 && (count == 7038531 || count == 14077062)

def isComparable (units : Units) : Bool :=
  Nat.ble (7 * units.denominator) (5 * units.numerator) &&
    Nat.ble units.numerator (longest * units.denominator)

theorem isCertified_ofPowers :
    ((List.range 84).all fun power => (List.range 254).all fun exponent =>
      let units := ofPowers ((power : Int) - 45) ((exponent : Int) - 150)
      !units.isComparable || units.isCertified) = true := by
  decide +kernel

theorem ofPowers_positive (power exponent : Int) :
    0 < (ofPowers power exponent).numerator ∧ 0 < (ofPowers power exponent).denominator :=
  ⟨Nat.mul_pos (Nat.pow_pos (by decide)) (Nat.two_pow_pos _),
    Nat.mul_pos (Nat.pow_pos (by decide)) (Nat.two_pow_pos _)⟩

theorem exists_factor (power exponent : Int) :
    ∃ factor : ℚ, 0 < factor ∧ ((ofPowers power exponent).numerator : ℚ) = factor * 10 ^ power ∧
      ((ofPowers power exponent).denominator : ℚ) = factor * 2 ^ exponent := by
  refine ⟨10 ^ (-power).toNat * 2 ^ (-exponent).toNat, by positivity, ?_, ?_⟩
  · rw [BinaryFormat.zpow_eq_div 10 power, ofPowers]
    simp only [tenTo_eq, twoTo_eq]
    push_cast
    field_simp
  · rw [BinaryFormat.zpow_eq_div 2 exponent, ofPowers]
    simp only [tenTo_eq, twoTo_eq]
    push_cast
    field_simp

variable {power exponent : Int}

theorem areNear_ofPowers
    (near : |(count * 10 ^ power : ℚ) - odd * 2 ^ exponent| * fineness ≤ odd * 2 ^ exponent) :
    (ofPowers power exponent).AreNear count odd := by
  obtain ⟨factor, positive, numerator, denominator⟩ := exists_factor power exponent
  have split : (count * (ofPowers power exponent).numerator -
      odd * (ofPowers power exponent).denominator : ℚ) =
      factor * (count * 10 ^ power - odd * 2 ^ exponent) := by
    rw [numerator, denominator]
    ring
  have scaled : |(count * (ofPowers power exponent).numerator -
      odd * (ofPowers power exponent).denominator : ℚ)| * fineness ≤
      odd * (ofPowers power exponent).denominator := by
    rw [split, abs_mul, abs_of_pos positive, denominator, mul_assoc, mul_left_comm (odd : ℚ)]
    exact mul_le_mul_of_nonneg_left near positive.le
  rw [AreNear]
  exact_mod_cast scaled

theorem meet_ofPowers (meet : count * (ofPowers power exponent).numerator =
    odd * (ofPowers power exponent).denominator) :
    (count * 10 ^ power : ℚ) = odd * 2 ^ exponent := by
  obtain ⟨factor, positive, numerator, denominator⟩ := exists_factor power exponent
  have meetCast : (count * (ofPowers power exponent).numerator : ℚ) =
      odd * (ofPowers power exponent).denominator := by exact_mod_cast meet
  rw [numerator, denominator, mul_left_comm, mul_left_comm (odd : ℚ)] at meetCast
  exact mul_left_cancel₀ positive.ne' meetCast

theorem isComparable_ofPowers (coarse : (7 : ℚ) * 2 ^ exponent ≤ 5 * 10 ^ power)
    (fits : (10 : ℚ) ^ power ≤ longest * 2 ^ exponent) :
    (ofPowers power exponent).isComparable = true := by
  obtain ⟨factor, positive, numerator, denominator⟩ := exists_factor power exponent
  rw [isComparable, Bool.and_eq_true, Nat.ble_eq, Nat.ble_eq]
  constructor
  · have scaled : (7 * (ofPowers power exponent).denominator : ℚ) ≤
        5 * (ofPowers power exponent).numerator := by
      rw [numerator, denominator, mul_left_comm, mul_left_comm 5]
      exact mul_le_mul_of_nonneg_left coarse positive.le
    exact_mod_cast scaled
  · have scaled : ((ofPowers power exponent).numerator : ℚ) ≤
        longest * (ofPowers power exponent).denominator := by
      rw [numerator, denominator, mul_left_comm]
      exact mul_le_mul_of_nonneg_left fits positive.le
    exact_mod_cast scaled

theorem exists_certificate {power exponent : Int} (leastPower : -45 ≤ power)
    (greatestPower : power ≤ 38) (least : -150 ≤ exponent) (greatest : exponent ≤ 103)
    (comparable : (ofPowers power exponent).isComparable = true) :
    ∃ upper lower, (ofPowers power exponent).isCertificate upper lower = true := by
  obtain ⟨powerIndex, rfl⟩ : ∃ index : Nat, power = (index : Int) - 45 :=
    ⟨(power + 45).toNat, by omega⟩
  obtain ⟨index, rfl⟩ : ∃ index : Nat, exponent = (index : Int) - 150 :=
    ⟨(exponent + 150).toNat, by omega⟩
  have all := isCertified_ofPowers
  rw [List.all_eq_true] at all
  have row := all powerIndex (List.mem_range.mpr (by omega))
  rw [List.all_eq_true] at row
  have certified := row index (List.mem_range.mpr (by omega))
  simp only [comparable, Bool.not_true, Bool.false_or] at certified
  exact exists_certificate_of_search certified

end Units

/-! ## Midpoints -/

variable {count odd : Nat} {power exponent : Int} {point : ℚ}

/-- A midpoint of single-precision numbers as an odd number of binary units. -/
structure IsMidpoint (point : ℚ) (odd : Nat) (exponent : Int) : Prop where
  eq : point = odd * 2 ^ exponent
  notEven : odd % 2 = 1
  short : odd < longest
  least : -150 ≤ exponent
  greatest : exponent ≤ 103

theorem IsMidpoint.close (midpoint : IsMidpoint point odd exponent) {real : ℚ}
    (near : |real - point| * fineness ≤ point) : |real - point| * 1000 ≤ 2 ^ exponent := by
  have short : (odd : ℚ) ≤ longest := by exact_mod_cast midpoint.short.le
  have bound : |real - point| * fineness ≤ longest * 2 ^ exponent := by
    refine near.trans (midpoint.eq.trans_le ?_)
    gcongr
  have unit : (0 : ℚ) < 2 ^ exponent := by positivity
  rw [fineness, longest] at bound
  norm_num at bound
  linarith

theorem unit_le_longest (positive : 0 < count) (short : odd < longest)
    (near : |(count * 10 ^ power : ℚ) - odd * 2 ^ exponent| * fineness ≤ odd * 2 ^ exponent) :
    (10 : ℚ) ^ power ≤ longest * 2 ^ exponent := by
  have unit : (0 : ℚ) < 10 ^ power := by positivity
  have binary : (0 : ℚ) < 2 ^ exponent := by positivity
  have some : (1 : ℚ) ≤ count := by exact_mod_cast positive
  have shortCast : (odd : ℚ) + 1 ≤ longest := by exact_mod_cast short
  have few : (odd : ℚ) ≤ fineness := by
    rw [longest] at short
    rw [fineness]
    exact_mod_cast (by omega : odd ≤ 4503599627370494)
  have fine : (0 : ℚ) < fineness := by norm_num [fineness]
  have beyond : (count * 10 ^ power : ℚ) - odd * 2 ^ exponent ≤ 2 ^ exponent := by
    refine le_of_mul_le_mul_right ?_ fine
    calc ((count * 10 ^ power : ℚ) - odd * 2 ^ exponent) * fineness
        ≤ |(count * 10 ^ power : ℚ) - odd * 2 ^ exponent| * fineness := by
          gcongr
          exact le_abs_self _
      _ ≤ odd * 2 ^ exponent := near
      _ ≤ fineness * 2 ^ exponent := by gcongr
      _ = 2 ^ exponent * fineness := mul_comm _ _
  calc (10 : ℚ) ^ power ≤ count * 10 ^ power := le_mul_of_one_le_left unit.le some
    _ ≤ (odd + 1) * 2 ^ exponent := by linarith
    _ ≤ longest * 2 ^ exponent := by gcongr

theorem power_bounds (least : -150 ≤ exponent) (greatest : exponent ≤ 103)
    (coarse : (7 : ℚ) * 2 ^ exponent ≤ 5 * 10 ^ power)
    (fits : (10 : ℚ) ^ power ≤ longest * 2 ^ exponent) : -45 ≤ power ∧ power ≤ 38 := by
  constructor
  · by_contra less
    have small : (10 : ℚ) ^ power ≤ 10 ^ (-46 : Int) :=
      zpow_le_zpow_right₀ (by norm_num) (by omega)
    have large : (2 : ℚ) ^ (-150 : Int) ≤ 2 ^ exponent := zpow_le_zpow_right₀ (by norm_num) least
    norm_num at small large
    linarith
  · by_contra greater
    have large : (10 : ℚ) ^ (39 : Int) ≤ 10 ^ power :=
      zpow_le_zpow_right₀ (by norm_num) (by omega)
    have small : (2 : ℚ) ^ exponent ≤ 2 ^ (103 : Int) :=
      zpow_le_zpow_right₀ (by norm_num) greatest
    rw [longest] at fits
    norm_num at small large fits
    linarith

/-- A decimal that is near to a midpoint of single-precision numbers, and whose unit is not much
smaller than the distance between midpoints, is the midpoint itself or one of two exceptions. -/
theorem meets_or_exempt (positive : 0 < count) (midpoint : IsMidpoint point odd exponent)
    (coarse : (7 : ℚ) * 2 ^ exponent ≤ 5 * 10 ^ power)
    (near : |(count * 10 ^ power : ℚ) - point| * fineness ≤ point) :
    (-22 ≤ power ∧ power ≤ 22 ∧ (count * 10 ^ power : ℚ) = point) ∨
      (power = -32 ∧ (count = 7038531 ∨ count = 14077062)) := by
  obtain ⟨rfl, notEven, short, least, greatest⟩ := midpoint
  obtain ⟨numerators, denominators⟩ := Units.ofPowers_positive power exponent
  have fits := unit_le_longest positive short near
  obtain ⟨leastPower, greatestPower⟩ := power_bounds least greatest coarse fits
  obtain ⟨upper, lower, certificate⟩ := Units.exists_certificate leastPower greatestPower least
    greatest (Units.isComparable_ofPowers coarse fits)
  rcases (Units.areNear_ofPowers near).meet_or_exempt denominators numerators short positive
    notEven certificate with ⟨may, meet⟩ | exempt
  · left
    simp only [Units.ofPowers, Bool.and_eq_true, decide_eq_true_eq] at may
    exact ⟨may.1, may.2, Units.meet_ofPowers meet⟩
  · right
    simpa [Units.ofPowers] using exempt

end Separation

end RangeRecall
