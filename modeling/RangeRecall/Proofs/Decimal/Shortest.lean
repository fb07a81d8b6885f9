import RangeRecall.Decimal.Shortest
import RangeRecall.Proofs.Numeric.Rounding

/-! The shortest decimal of a binary number. It rounds to the number, it has few digits, and among
the points of its own grid it is the nearest one. -/

namespace RangeRecall

open BinaryFormat (RoundsTo InPlace zpow_eq_div)

def Decimal.value (decimal : Decimal) : ℚ :=
  decimal.digits * 10 ^ decimal.exponent

namespace RoundingInterval

variable {interval : RoundingInterval} {real : ℚ}

def lowerEnd (interval : RoundingInterval) : ℚ :=
  interval.lower / interval.denominator

def middle (interval : RoundingInterval) : ℚ :=
  interval.center / interval.denominator

def upperEnd (interval : RoundingInterval) : ℚ :=
  interval.upper / interval.denominator

structure Holds (interval : RoundingInterval) (real : ℚ) : Prop where
  above : interval.lowerEnd < real ∨ (interval.lowerEnd = real ∧ interval.closed = true)
  below : real < interval.upperEnd ∨ (real = interval.upperEnd ∧ interval.closed = true)

structure IsProper (interval : RoundingInterval) : Prop where
  denominator : 0 < interval.denominator
  lower : interval.lowerEnd < interval.middle
  upper : interval.middle < interval.upperEnd

theorem contains_iff (proper : 0 < interval.denominator) {scale : Nat} (positive : 0 < scale)
    (point : Nat) :
    interval.contains point scale = true ↔ interval.Holds (point / scale) := by
  have denominators : (0 : ℚ) < interval.denominator := by exact_mod_cast proper
  have scales : (0 : ℚ) < scale := by exact_mod_cast positive
  have lowerLess : interval.lower * scale < point * interval.denominator ↔
      interval.lowerEnd < point / scale := by
    rw [lowerEnd, div_lt_div_iff₀ denominators scales]
    exact_mod_cast Iff.rfl
  have upperLess : point * interval.denominator < interval.upper * scale ↔
      point / scale < interval.upperEnd := by
    rw [upperEnd, div_lt_div_iff₀ scales denominators]
    exact_mod_cast Iff.rfl
  have lowerSame : interval.lower * scale = point * interval.denominator ↔
      interval.lowerEnd = point / scale := by
    rw [lowerEnd, div_eq_div_iff denominators.ne' scales.ne']
    exact_mod_cast Iff.rfl
  have upperSame : point * interval.denominator = interval.upper * scale ↔
      (point : ℚ) / scale = interval.upperEnd := by
    rw [upperEnd, div_eq_div_iff scales.ne' denominators.ne']
    exact_mod_cast Iff.rfl
  unfold contains
  cases closed : interval.closed with
  | true =>
      simp only [if_true, Bool.and_eq_true, decide_eq_true_eq, Nat.le_iff_lt_or_eq, lowerLess,
        upperLess, lowerSame, upperSame]
      exact ⟨fun both => ⟨both.1.imp_right (⟨·, closed⟩), both.2.imp_right (⟨·, closed⟩)⟩,
        fun holds => ⟨holds.above.imp_right And.left, holds.below.imp_right And.left⟩⟩
  | false =>
      simp only [Bool.false_eq_true, if_false, Bool.and_eq_true, decide_eq_true_eq, lowerLess,
        upperLess]
      refine ⟨fun both => ⟨.inl both.1, .inl both.2⟩, fun holds => ⟨?_, ?_⟩⟩
      · exact holds.above.resolve_right fun tie => by rw [closed] at tie; cases tie.2
      · exact holds.below.resolve_right fun tie => by rw [closed] at tie; cases tie.2

/-! ## Points of one grid -/

/-- No point of a grid with the given unit is a better choice: the next point on the other side of
the middle is outside of the interval or not nearer. -/
structure Nearest (interval : RoundingInterval) (unit real : ℚ) : Prop where
  above : interval.middle < real →
    real - interval.lowerEnd ≤ unit ∨ 2 * (real - interval.middle) ≤ unit
  below : real < interval.middle →
    interval.upperEnd - real ≤ unit ∨ 2 * (interval.middle - real) ≤ unit

theorem contains_point_iff (positive : 0 < interval.denominator) (exponent : Int) (point : Nat) :
    interval.contains (point * tenTo exponent.toNat) (tenTo (-exponent).toNat) = true ↔
      interval.Holds (point * 10 ^ exponent) := by
  have same : ((point * tenTo exponent.toNat : Nat) : ℚ) / (tenTo (-exponent).toNat : Nat) =
      point * 10 ^ exponent := by
    rw [zpow_eq_div, tenTo_eq, tenTo_eq]
    push_cast
    ring
  have scales : 0 < tenTo (-exponent).toNat := Nat.pow_pos (by decide)
  rw [contains_iff positive scales, same]

def gridFloor (interval : RoundingInterval) (exponent : Int) : Nat :=
  interval.center * tenTo (-exponent).toNat / (interval.denominator * tenTo exponent.toNat)

theorem gridFloor_spec (positive : 0 < interval.denominator) (exponent : Int) :
    interval.gridFloor exponent * 10 ^ exponent ≤ interval.middle ∧
      interval.middle < (interval.gridFloor exponent + 1) * 10 ^ exponent := by
  have denominators : (0 : ℚ) < interval.denominator := by exact_mod_cast positive
  have units : (0 : ℚ) < 10 ^ exponent.toNat := by positivity
  have scales : (0 : ℚ) < 10 ^ (-exponent).toNat := by positivity
  have whole : 0 < interval.denominator * tenTo exponent.toNat :=
    Nat.mul_pos positive (Nat.pow_pos (by decide))
  have floor : interval.gridFloor exponent * (interval.denominator * tenTo exponent.toNat) ≤
      interval.center * tenTo (-exponent).toNat := Nat.div_mul_le_self _ _
  have ceiling : interval.center * tenTo (-exponent).toNat <
      (interval.gridFloor exponent + 1) * (interval.denominator * tenTo exponent.toNat) := by
    rw [← Nat.div_lt_iff_lt_mul whole]
    exact Nat.lt_succ_self _
  rw [tenTo_eq, tenTo_eq] at floor ceiling
  have floorCast : (interval.gridFloor exponent * (interval.denominator * 10 ^ exponent.toNat) : ℚ)
      ≤ interval.center * 10 ^ (-exponent).toNat := by exact_mod_cast floor
  have ceilingCast : (interval.center * 10 ^ (-exponent).toNat : ℚ) <
      (interval.gridFloor exponent + 1) * (interval.denominator * 10 ^ exponent.toNat) := by
    exact_mod_cast ceiling
  rw [zpow_eq_div, middle, ← mul_div_assoc, ← mul_div_assoc, div_le_div_iff₀ scales denominators,
    div_lt_div_iff₀ denominators scales]
  constructor <;> linarith

theorem nearer_iff (positive : 0 < interval.denominator) (exponent : Int) (floor : Nat) :
    (2 * interval.center * tenTo (-exponent).toNat <
        (2 * floor + 1) * tenTo exponent.toNat * interval.denominator ↔
      2 * interval.middle < (2 * floor + 1) * 10 ^ exponent) ∧
    ((2 * floor + 1) * tenTo exponent.toNat * interval.denominator <
        2 * interval.center * tenTo (-exponent).toNat ↔
      (2 * floor + 1) * 10 ^ exponent < 2 * interval.middle) := by
  have denominators : (0 : ℚ) < interval.denominator := by exact_mod_cast positive
  have scales : (0 : ℚ) < 10 ^ (-exponent).toNat := by positivity
  rw [zpow_eq_div, middle, ← mul_div_assoc, ← mul_div_assoc, div_lt_div_iff₀ denominators scales,
    div_lt_div_iff₀ scales denominators, tenTo_eq, tenTo_eq]
  exact ⟨by exact_mod_cast Iff.rfl, by exact_mod_cast Iff.rfl⟩

theorem gridPoint_eq (interval : RoundingInterval) (tie : TieRule) (exponent : Int) :
    interval.gridPoint tie exponent =
      match interval.contains (interval.gridFloor exponent * tenTo exponent.toNat)
          (tenTo (-exponent).toNat),
        interval.contains ((interval.gridFloor exponent + 1) * tenTo exponent.toNat)
          (tenTo (-exponent).toNat) with
      | false, false => none
      | true, false => some (interval.gridFloor exponent)
      | false, true => some (interval.gridFloor exponent + 1)
      | true, true =>
        if 2 * interval.center * tenTo (-exponent).toNat <
            (2 * interval.gridFloor exponent + 1) * tenTo exponent.toNat * interval.denominator
          then some (interval.gridFloor exponent)
        else if (2 * interval.gridFloor exponent + 1) * tenTo exponent.toNat *
            interval.denominator < 2 * interval.center * tenTo (-exponent).toNat
          then some (interval.gridFloor exponent + 1)
        else match tie with
          | .up => some (interval.gridFloor exponent + 1)
          | .toEven => some (interval.gridFloor exponent + interval.gridFloor exponent % 2) := rfl

structure IsChoice (interval : RoundingInterval) (exponent : Int) (digits : Nat) : Prop where
  holds : interval.Holds (digits * 10 ^ exponent)
  nearest : interval.Nearest (10 ^ exponent) (digits * 10 ^ exponent)
  beside : digits = interval.gridFloor exponent ∨ digits = interval.gridFloor exponent + 1

theorem isChoice_floor (proper : interval.IsProper) {exponent : Int}
    (holds : interval.Holds (interval.gridFloor exponent * 10 ^ exponent))
    (closer : ¬interval.Holds ((interval.gridFloor exponent + 1 : Nat) * 10 ^ exponent) ∨
      2 * interval.middle ≤ (2 * interval.gridFloor exponent + 1) * 10 ^ exponent) :
    interval.IsChoice exponent (interval.gridFloor exponent) := by
  obtain ⟨low, high⟩ := gridFloor_spec proper.denominator exponent
  have lower := proper.lower
  push_cast at closer
  refine ⟨holds, ⟨fun less => absurd less (not_lt.mpr low), fun _ => ?_⟩, .inl rfl⟩
  rcases closer with outside | closer
  · left
    by_contra inside
    exact outside ⟨.inl (by linarith), .inl (by linarith)⟩
  · right
    linarith

theorem isChoice_next (proper : interval.IsProper) {exponent : Int}
    (holds : interval.Holds ((interval.gridFloor exponent + 1 : Nat) * 10 ^ exponent))
    (closer : ¬interval.Holds (interval.gridFloor exponent * 10 ^ exponent) ∨
      (2 * interval.gridFloor exponent + 1) * 10 ^ exponent ≤ 2 * interval.middle) :
    interval.IsChoice exponent (interval.gridFloor exponent + 1) := by
  obtain ⟨low, high⟩ := gridFloor_spec proper.denominator exponent
  have upper := proper.upper
  have above : interval.middle < (interval.gridFloor exponent + 1 : Nat) * 10 ^ exponent := by
    push_cast
    exact high
  refine ⟨holds, ⟨fun _ => ?_, fun less => absurd less (not_lt.mpr above.le)⟩, .inr rfl⟩
  push_cast
  rcases closer with outside | closer
  · left
    by_contra inside
    exact outside ⟨.inl (by linarith), .inl (by linarith)⟩
  · right
    linarith

theorem isChoice_of_gridPoint (proper : interval.IsProper) {tie : TieRule} {exponent : Int}
    {digits : Nat} (found : interval.gridPoint tie exponent = some digits) :
    interval.IsChoice exponent digits := by
  have positive := proper.denominator
  have floorIff := contains_point_iff positive exponent (interval.gridFloor exponent)
  have nextIff := contains_point_iff positive exponent (interval.gridFloor exponent + 1)
  have nearer := nearer_iff positive exponent (interval.gridFloor exponent)
  rw [gridPoint_eq] at found
  split at found
  · cases found
  · rename_i inside outside
    cases found
    exact isChoice_floor proper (floorIff.mp inside) (.inl (by rw [← nextIff, outside]; decide))
  · rename_i outside inside
    cases found
    exact isChoice_next proper (nextIff.mp inside) (.inl (by rw [← floorIff, outside]; decide))
  · rename_i floorInside nextInside
    -- Both points are inside, so the distances from the middle decide, and on a tie the rule.
    have floorChoice := isChoice_floor proper (floorIff.mp floorInside)
    have nextChoice := isChoice_next proper (nextIff.mp nextInside)
    split at found
    · rename_i less
      cases found
      exact floorChoice (.inr (nearer.1.mp less).le)
    · rename_i notLess
      have atLeast := le_of_not_gt (nearer.1.not.mp notLess)
      split at found
      · cases found
        exact nextChoice (.inr atLeast)
      · rename_i notGreater
        have atMost := le_of_not_gt (nearer.2.not.mp notGreater)
        cases tie with
        | up =>
            cases found
            exact nextChoice (.inr atLeast)
        | toEven =>
            cases found
            rcases Nat.mod_two_eq_zero_or_one (interval.gridFloor exponent) with even | odd
            · rw [even]
              exact floorChoice (.inr atMost)
            · rw [odd]
              exact nextChoice (.inr atLeast)

theorem gridFloor_pos (positive : 0 < interval.denominator) {exponent : Int}
    (unit : 10 ^ exponent ≤ interval.middle) : 0 < interval.gridFloor exponent := by
  obtain ⟨-, high⟩ := gridFloor_spec positive exponent
  have step : (0 : ℚ) < 10 ^ exponent := by positivity
  have above : (1 : ℚ) < interval.gridFloor exponent + 1 := by
    rw [← mul_lt_mul_iff_left₀ step, one_mul]
    linarith
  have : 1 < interval.gridFloor exponent + 1 := by exact_mod_cast above
  omega

theorem gridFloor_lt (positive : 0 < interval.denominator) {exponent : Int} {limit : Nat}
    (less : interval.middle < limit * 10 ^ exponent) : interval.gridFloor exponent < limit := by
  obtain ⟨low, -⟩ := gridFloor_spec positive exponent
  have step : (0 : ℚ) < 10 ^ exponent := by positivity
  have below : (interval.gridFloor exponent : ℚ) < limit := by
    rw [← mul_lt_mul_iff_left₀ step]
    linarith
  exact_mod_cast below

theorem gridPoint_ne_none (proper : interval.IsProper) (tie : TieRule) {exponent : Int}
    (fine : 10 ^ exponent < interval.upperEnd - interval.middle) :
    interval.gridPoint tie exponent ≠ none := by
  obtain ⟨low, high⟩ := gridFloor_spec proper.denominator exponent
  have inside : interval.contains ((interval.gridFloor exponent + 1) * tenTo exponent.toNat)
      (tenTo (-exponent).toNat) = true := by
    rw [contains_point_iff proper.denominator]
    push_cast
    exact ⟨.inl (by linarith [proper.lower]), .inl (by linarith)⟩
  rw [gridPoint_eq, inside]
  split
  · rename_i absurd
    cases absurd
  · rename_i absurd
    cases absurd
  · exact Option.some_ne_none _
  · split_ifs
    · exact Option.some_ne_none _
    · exact Option.some_ne_none _
    · cases tie <;> exact Option.some_ne_none _

theorem exists_search (proper : interval.IsProper) (tie : TieRule) {grids finer : Nat}
    {exponent : Int} (within : finer < grids)
    (fine : 10 ^ (exponent - finer) < interval.upperEnd - interval.middle) :
    ∃ decimal, interval.search tie exponent grids = some decimal ∧
      interval.gridPoint tie decimal.exponent = some decimal.digits ∧
      exponent - finer ≤ decimal.exponent ∧ decimal.exponent ≤ exponent := by
  induction grids generalizing exponent finer with
  | zero => omega
  | succ grids ih =>
      rw [search]
      rcases found : interval.gridPoint tie exponent with _ | digits
      · have coarse : finer ≠ 0 := by
          rintro rfl
          exact gridPoint_ne_none proper tie (by simpa using fine) found
        have shift : exponent - 1 - (finer - 1 : Nat) = exponent - finer := by omega
        obtain ⟨decimal, same, point, least, greatest⟩ :=
          ih (show finer - 1 < grids by omega) (shift ▸ fine)
        exact ⟨decimal, same, point, by omega, by omega⟩
      · exact ⟨⟨digits, exponent⟩, rfl, found, by simp, le_rfl⟩

end RoundingInterval

/-! ## The first digit -/

namespace Decimal

theorem digitCount_spec {natural : Nat} (positive : natural ≠ 0) :
    10 ^ (digitCount natural - 1) ≤ natural ∧ natural < 10 ^ digitCount natural ∧
      0 < digitCount natural := by
  induction natural using digitCount.induct with
  | case1 => exact absurd rfl positive
  | case2 natural nonzero ih =>
      rw [digitCount, if_neg nonzero, Nat.add_sub_cancel]
      rcases Nat.lt_or_ge natural 10 with small | large
      · rw [Nat.div_eq_of_lt small, digitCount, if_pos rfl]
        exact ⟨Nat.one_le_iff_ne_zero.mpr nonzero, small, Nat.one_pos⟩
      · obtain ⟨least, greatest, some⟩ := ih (by omega)
        obtain ⟨rest, same⟩ := Nat.exists_eq_succ_of_ne_zero some.ne'
        rw [same, Nat.succ_sub_one] at least
        rw [same] at greatest
        rw [same, pow_succ, pow_succ]
        rw [pow_succ] at greatest
        exact ⟨by omega, by omega, by omega⟩

theorem leadingZeros_spec (denominator : Nat) {numerator : Nat} (less : numerator < denominator)
    (limit : Nat) :
    10 ^ leadingZeros denominator numerator limit * numerator < denominator ∧
      (leadingZeros denominator numerator limit = limit ∨
        denominator ≤ 10 ^ (leadingZeros denominator numerator limit + 1) * numerator) := by
  induction limit generalizing numerator with
  | zero => simpa [leadingZeros] using less
  | succ limit ih =>
      rw [leadingZeros]
      split
      · rename_i again
        obtain ⟨below, ends⟩ := ih again
        have step (power : Nat) : 10 ^ (power + 1) * numerator = 10 ^ power * (10 * numerator) := by
          ring
        rw [step, step]
        exact ⟨below, ends.imp_left (congrArg (· + 1))⟩
      · simp only [pow_zero, Nat.one_mul, Nat.zero_add, pow_one]
        exact ⟨less, .inr (by omega)⟩

theorem leadingPosition_spec {numerator denominator : Nat} (positive : 0 < numerator)
    (denominators : 0 < denominator) :
    (10 : ℚ) ^ (leadingPosition numerator denominator - 1) ≤ numerator / denominator ∧
      (numerator : ℚ) / denominator < 10 ^ leadingPosition numerator denominator := by
  have scale : (0 : ℚ) < denominator := by exact_mod_cast denominators
  rw [leadingPosition]
  split
  · rename_i whole
    have quotient : numerator / denominator ≠ 0 := (Nat.div_pos whole denominators).ne'
    obtain ⟨least, greatest, some⟩ := digitCount_spec quotient
    generalize digitCount (numerator / denominator) = count at least greatest some
    obtain ⟨rest, rfl⟩ := Nat.exists_eq_succ_of_ne_zero some.ne'
    rw [Nat.succ_sub_one, Nat.le_div_iff_mul_le denominators] at least
    rw [Nat.div_lt_iff_lt_mul denominators] at greatest
    have shift : ((rest.succ : Nat) : ℤ) - 1 = (rest : ℤ) := by omega
    rw [shift, zpow_natCast, zpow_natCast, le_div_iff₀ scale, div_lt_iff₀ scale]
    exact ⟨by exact_mod_cast least, by exact_mod_cast greatest⟩
  · rename_i part
    obtain ⟨below, ends⟩ :=
      leadingZeros_spec denominator (Nat.lt_of_not_le part) denominator.log2
    generalize leadingZeros denominator numerator denominator.log2 = zeros at below ends
    have reached : denominator ≤ 10 ^ (zeros + 1) * numerator := by
      refine ends.elim (fun all => ?_) id
      have short : denominator < 2 ^ (denominator.log2 + 1) := Nat.lt_log2_self
      have long : 2 ^ (denominator.log2 + 1) ≤ 10 ^ (zeros + 1) :=
        all ▸ Nat.pow_le_pow_left (by decide) _
      nlinarith
    have power : (0 : ℚ) < 10 ^ zeros := by positivity
    have shift : -(zeros : ℤ) - 1 = -((zeros + 1 : Nat) : ℤ) := by omega
    rw [shift, zpow_neg, zpow_neg, zpow_natCast, zpow_natCast, ← one_div, ← one_div,
      div_le_div_iff₀ (by positivity) scale, div_lt_div_iff₀ scale power]
    constructor
    · rw [one_mul, mul_comm]
      exact_mod_cast reached
    · rw [one_mul, mul_comm]
      exact_mod_cast below

/-! ## Trailing zeros -/

theorem strip_spec (decimal : Decimal) :
    decimal.strip.value = decimal.value ∧ decimal.exponent ≤ decimal.strip.exponent ∧
      decimal.strip.digits ≤ decimal.digits ∧ (0 < decimal.digits → 0 < decimal.strip.digits) := by
  induction decimal using strip.induct with
  | case1 decimal zeros ih =>
      rw [strip, if_pos zeros]
      obtain ⟨value, exponent, digits, positive⟩ := ih
      refine ⟨value.trans ?_, ?_, ?_, fun _ => positive ?_⟩
      · have whole : decimal.digits = decimal.digits / 10 * 10 := by omega
        have cast : (decimal.digits : ℚ) = (decimal.digits / 10 : Nat) * 10 := by
          exact_mod_cast whole
        rw [Decimal.value, Decimal.value, zpow_add_one₀ (by norm_num), cast]
        ring
      · change decimal.exponent + 1 ≤ _ at exponent
        omega
      · exact digits.trans (Nat.div_le_self _ _)
      · change 0 < decimal.digits / 10
        omega
  | case2 decimal stays =>
      rw [strip, if_neg stays]
      exact ⟨rfl, le_rfl, le_rfl, id⟩

end Decimal

/-! ## The interval of a number -/

namespace RoundingInterval

variable {format : BinaryFormat} {pattern steps significand : Nat}

theorem denominator_ofFinite (format : BinaryFormat) (significand : Nat) (exponent : Int) :
    0 < (ofFinite format significand exponent).denominator :=
  Nat.two_pow_pos _

theorem quarter_eq (exponent : Int) :
    ((twoTo (exponent - 2).toNat : Nat) : ℚ) / (twoTo (2 - exponent).toNat : Nat) =
      2 ^ exponent / 4 := by
  have opposite : 2 - exponent = -(exponent - 2) := by omega
  have split := zpow_eq_div 2 (exponent - 2)
  rw [zpow_sub₀ two_ne_zero] at split
  rw [opposite, twoTo_eq, twoTo_eq]
  push_cast
  rw [← split]
  norm_num

theorem middle_ofFinite (place : format.InPlace pattern steps significand) :
    (ofFinite format significand (format.leastExponent + steps)).middle =
      format.magnitude pattern := by
  have quarter := quarter_eq (format.leastExponent + steps)
  rw [place.magnitude_eq, middle, ofFinite]
  push_cast
  rw [mul_div_assoc, quarter]
  ring

theorem upperEnd_ofFinite (place : format.InPlace pattern steps significand) :
    (ofFinite format significand (format.leastExponent + steps)).upperEnd =
      format.midpoint pattern := by
  have quarter := quarter_eq (format.leastExponent + steps)
  rw [place.eq, BinaryFormat.midpoint_place place.bounded place.normal, upperEnd, ofFinite]
  push_cast
  rw [mul_div_assoc, quarter]
  ring

theorem lowerEnd_ofFinite (place : format.InPlace pattern steps significand) {before : Nat}
    (next : before + 1 = pattern) :
    (ofFinite format significand (format.leastExponent + steps)).lowerEnd =
      format.midpoint before := by
  have quarter := quarter_eq (format.leastExponent + steps)
  have positive : 1 ≤ significand :=
    Nat.one_le_iff_ne_zero.mpr fun zero => by
      have := place.pattern_eq_zero_iff.mpr zero
      omega
  have edge : significand = twoTo format.fractionBits ∧
      format.leastExponent + steps ≠ format.leastExponent ↔
        steps ≠ 0 ∧ significand = 2 ^ format.fractionBits := by
    rw [twoTo_eq]
    omega
  rw [lowerEnd, ofFinite]
  simp only [edge]
  rcases BinaryFormat.midpoint_below_place place.bounded.le place.normal (next.trans place.eq) with
    ⟨inner, same⟩ | ⟨outer, same⟩
  · rw [same, if_neg inner, Nat.cast_mul, Nat.cast_sub (by omega), mul_div_assoc, quarter]
    push_cast
    ring
  · rw [same, if_pos outer, Nat.cast_mul, Nat.cast_sub (by omega), mul_div_assoc, quarter]
    push_cast
    ring

theorem isProper_ofFinite (place : format.InPlace pattern steps significand)
    (positive : pattern ≠ 0) :
    (ofFinite format significand (format.leastExponent + steps)).IsProper where
  denominator := denominator_ofFinite _ _ _
  lower := by
    obtain ⟨before, rfl⟩ := Nat.exists_eq_succ_of_ne_zero positive
    rw [middle_ofFinite place, lowerEnd_ofFinite place rfl]
    exact BinaryFormat.midpoint_lt_magnitude before
  upper := by
    rw [middle_ofFinite place, upperEnd_ofFinite place]
    exact BinaryFormat.magnitude_lt_midpoint pattern

theorem roundsTo_of_holds (fractions : format.fractionBits ≠ 0)
    (place : format.InPlace pattern steps significand) (finite : pattern < format.infinityPattern)
    {real : ℚ} (holds : (ofFinite format significand (format.leastExponent + steps)).Holds real) :
    RoundsTo format real pattern := by
  have even : (ofFinite format significand (format.leastExponent + steps)).closed = true →
      pattern % 2 = 0 := by
    intro closed
    rw [place.eq, ← Nat.succ_pred fractions, pow_succ, ← mul_assoc, Nat.mul_add_mod_self_right]
    exact beq_iff_eq.mp closed
  refine ⟨finite.le, ?_, fun _ => ?_⟩
  · intro before next
    rw [← lowerEnd_ofFinite place next]
    exact holds.above.imp_right (And.imp_right even)
  · rw [← upperEnd_ofFinite place]
    exact holds.below.imp_right (And.imp_right even)

end RoundingInterval

/-! ## The shortest decimal -/

/-- What the shortest decimal of a number is like. -/
structure Decimal.IsShortFor (format : BinaryFormat) (pattern digits : Nat)
    (interval : RoundingInterval) (decimal : Decimal) : Prop where
  rounds : RoundsTo format decimal.value pattern
  nearest : interval.Nearest (10 ^ decimal.exponent) decimal.value
  positive : 0 < decimal.digits
  bounded : decimal.digits ≤ 10 ^ digits

theorem Decimal.IsShortFor.exponent_bounds {format : BinaryFormat} {pattern places : Nat}
    {interval : RoundingInterval} {decimal : Decimal}
    (short : decimal.IsShortFor format pattern places interval) {least greatest : Int}
    (low : 10 ^ (least + places - 1) < decimal.value)
    (high : decimal.value < 10 ^ (greatest + 1)) :
    least ≤ decimal.exponent ∧ decimal.exponent ≤ greatest := by
  have some : (1 : ℚ) ≤ decimal.digits := by exact_mod_cast short.positive
  have few : (decimal.digits : ℚ) ≤ 10 ^ places := by exact_mod_cast short.bounded
  have upper : decimal.value ≤ 10 ^ (places + decimal.exponent) := by
    rw [value, zpow_add₀ (by norm_num), zpow_natCast]
    gcongr
  have lower : 10 ^ decimal.exponent ≤ decimal.value :=
    le_mul_of_one_le_left (by positivity) some
  have ten : (1 : ℚ) < 10 := by norm_num
  have exponentLow := (zpow_lt_zpow_iff_right₀ ten).mp (low.trans_le upper)
  have exponentHigh := (zpow_lt_zpow_iff_right₀ ten).mp (lower.trans_lt high)
  omega

theorem RoundingInterval.Nearest.mono {interval : RoundingInterval} {unit larger real : ℚ}
    (nearest : interval.Nearest unit real) (le : unit ≤ larger) : interval.Nearest larger real where
  above greater := (nearest.above greater).imp le.trans' le.trans'
  below less := (nearest.below less).imp le.trans' le.trans'

theorem RoundingInterval.grid_fine {format : BinaryFormat} {pattern steps significand finer : Nat}
    (place : format.InPlace pattern steps significand)
    (fine : 2 ^ (format.fractionBits + 2) ≤ 10 ^ finer) {first : Int}
    (least : (10 : ℚ) ^ (first - 1) ≤
      (ofFinite format significand (format.leastExponent + steps)).middle) :
    10 ^ (first - 1 - finer) <
      (ofFinite format significand (format.leastExponent + steps)).upperEnd -
        (ofFinite format significand (format.leastExponent + steps)).middle := by
  have unit : (0 : ℚ) < 2 ^ (format.leastExponent + steps) := by positivity
  have shorter : (significand : ℚ) < 2 ^ (format.fractionBits + 1) := by
    exact_mod_cast place.bounded
  have enough : (2 : ℚ) ^ (format.fractionBits + 2) ≤ 10 ^ finer := by exact_mod_cast fine
  rw [middle_ofFinite place, place.magnitude_eq] at least ⊢
  rw [upperEnd_ofFinite place, place.eq,
    BinaryFormat.midpoint_place place.bounded place.normal, zpow_sub₀ (by norm_num),
    zpow_natCast, div_lt_iff₀ (by positivity)]
  calc (10 : ℚ) ^ (first - 1)
      ≤ significand * 2 ^ (format.leastExponent + steps) := least
    _ < 2 ^ (format.fractionBits + 1) * 2 ^ (format.leastExponent + steps) := by gcongr
    _ = 2 ^ (format.leastExponent + steps) / 2 * 2 ^ (format.fractionBits + 2) := by ring
    _ ≤ 2 ^ (format.leastExponent + steps) / 2 * 10 ^ finer := by gcongr
    _ = _ := by ring

theorem Decimal.shortest_isShort {format : BinaryFormat} {pattern steps significand finer : Nat}
    (fractions : format.fractionBits ≠ 0) (place : format.InPlace pattern steps significand)
    (positive : pattern ≠ 0) (finite : pattern < format.infinityPattern)
    (fine : 2 ^ (format.fractionBits + 2) ≤ 10 ^ finer) (within : finer < format.fractionBits + 2)
    (tie : TieRule) :
    IsShortFor format pattern (finer + 1)
      (RoundingInterval.ofFinite format significand (format.leastExponent + steps))
      (shortest format tie significand (format.leastExponent + steps)) := by
  have proper := RoundingInterval.isProper_ofFinite place positive
  have rounds := @RoundingInterval.roundsTo_of_holds _ _ _ _ fractions place finite
  have finerThan := @RoundingInterval.grid_fine _ _ _ _ _ place fine
  have centers : 0 < significand :=
    Nat.pos_of_ne_zero (mt place.pattern_eq_zero_iff.mpr positive)
  have center : 0 < (RoundingInterval.ofFinite format significand
      (format.leastExponent + steps)).center :=
    Nat.mul_pos (Nat.mul_pos four_pos centers) (Nat.two_pow_pos _)
  rw [shortest]
  generalize RoundingInterval.ofFinite format significand
    (format.leastExponent + steps) = interval at *
  obtain ⟨least, greatest⟩ := leadingPosition_spec center proper.denominator
  rw [← RoundingInterval.middle] at least greatest
  generalize leadingPosition interval.center interval.denominator = first at *
  obtain ⟨decimal, found, point, fineExponent, coarseExponent⟩ :=
    RoundingInterval.exists_search proper tie within (finerThan least)
  obtain ⟨holds, nearest, beside⟩ := RoundingInterval.isChoice_of_gridPoint proper point
  -- The grid is not coarser than the first digit, and no finer than the digits that are allowed.
  have atLeast : 0 < interval.gridFloor decimal.exponent := by
    have coarse : (10 : ℚ) ^ decimal.exponent ≤ 10 ^ (first - 1) :=
      zpow_le_zpow_right₀ (by norm_num) coarseExponent
    exact RoundingInterval.gridFloor_pos proper.denominator (coarse.trans least)
  have atMost : interval.gridFloor decimal.exponent < 10 ^ (finer + 1) := by
    have longest : (10 : ℚ) ^ first ≤ 10 ^ (finer + 1) * 10 ^ decimal.exponent := by
      rw [← zpow_natCast, ← zpow_add₀ (by norm_num)]
      exact zpow_le_zpow_right₀ (by norm_num) (by push_cast; omega)
    refine RoundingInterval.gridFloor_lt proper.denominator (greatest.trans_le ?_)
    exact_mod_cast longest
  obtain ⟨value, exponent, shorter, kept⟩ := decimal.strip_spec
  rw [found]
  exact {
    rounds := value ▸ rounds holds
    nearest := value ▸ nearest.mono (zpow_le_zpow_right₀ (by norm_num) exponent)
    positive := kept (by omega)
    bounded := shorter.trans (by omega) }

end RangeRecall
