import Mathlib
import RangeRecall.Numeric.BinaryFormat

/-! Rounding to a binary format. The patterns without a sign are ordered like the numbers that they
stand for, so a pattern is nearest to a number just in case the number lies between the two
midpoints next to it. -/

namespace RangeRecall

theorem twoTo_eq (exponent : Nat) : twoTo exponent = 2 ^ exponent := rfl

theorem tenTo_eq (exponent : Nat) : tenTo exponent = 10 ^ exponent := rfl

namespace BinaryFormat

variable {format : BinaryFormat}

/-- The real number that a pattern without a sign stands for. The patterns from infinity on are
read as if exponents had no bound. -/
def magnitude (format : BinaryFormat) (pattern : Nat) : ℚ :=
  let biased := pattern / 2 ^ format.fractionBits
  let fraction := pattern % 2 ^ format.fractionBits
  ((if biased = 0 then fraction else fraction + 2 ^ format.fractionBits : Nat) : ℚ) *
    2 ^ (format.leastExponent + (biased - 1 : Nat))

/-! ## Places -/

theorem magnitude_place {steps significand : Nat}
    (bounded : significand ≤ 2 ^ (format.fractionBits + 1))
    (normal : steps = 0 ∨ 2 ^ format.fractionBits ≤ significand) :
    format.magnitude (steps * 2 ^ format.fractionBits + significand) =
      significand * 2 ^ (format.leastExponent + steps) := by
  have width : 0 < 2 ^ format.fractionBits := by positivity
  rw [pow_succ] at bounded
  unfold magnitude
  generalize 2 ^ format.fractionBits = unit at width bounded normal
  rcases Nat.lt_or_ge significand unit with small | large
  · obtain rfl : steps = 0 := by omega
    simp [Nat.div_eq_of_lt small, Nat.mod_eq_of_lt small]
  · obtain ⟨rest, rfl⟩ := Nat.exists_eq_add_of_le large
    rcases Nat.lt_or_ge rest unit with inside | full
    · have whole : steps * unit + (unit + rest) = rest + unit * (steps + 1) := by ring
      rw [whole, Nat.add_mul_div_left _ _ width, Nat.add_mul_mod_self_left,
        Nat.div_eq_of_lt inside, Nat.mod_eq_of_lt inside]
      simp [add_comm]
    · obtain rfl : rest = unit := by omega
      have whole : steps * rest + (rest + rest) = 0 + rest * (steps + 2) := by ring
      rw [whole, Nat.add_mul_div_left _ _ width, Nat.add_mul_mod_self_left]
      have next : (steps + 2 - 1 : Nat) = steps + 1 := rfl
      simp only [Nat.zero_div, Nat.zero_add, Nat.zero_mod, Nat.add_eq_zero_iff, OfNat.ofNat_ne_zero,
        and_false, if_false, next]
      push_cast
      rw [← add_assoc, zpow_add_one₀ two_ne_zero]
      ring

/-- The pattern stands for a significand in the place so many steps above the least one. Only the
least place has significands that lack bits. -/
structure InPlace (format : BinaryFormat) (pattern steps significand : Nat) : Prop where
  eq : pattern = steps * 2 ^ format.fractionBits + significand
  bounded : significand < 2 ^ (format.fractionBits + 1)
  normal : steps = 0 ∨ 2 ^ format.fractionBits ≤ significand

theorem exists_place (format : BinaryFormat) (pattern : Nat) :
    ∃ steps significand, format.InPlace pattern steps significand := by
  have width : 0 < 2 ^ format.fractionBits := by positivity
  have double := pow_succ 2 format.fractionBits
  have whole := Nat.div_add_mod pattern (2 ^ format.fractionBits)
  have rest := Nat.mod_lt pattern width
  rcases biased : pattern / 2 ^ format.fractionBits with _ | steps
  · rw [biased] at whole
    exact ⟨0, pattern, by omega, by omega, .inl rfl⟩
  · rw [biased, Nat.mul_succ, Nat.mul_comm] at whole
    exact ⟨steps, 2 ^ format.fractionBits + pattern % 2 ^ format.fractionBits, by omega, by omega,
      .inr (by omega)⟩

theorem InPlace.magnitude_eq {pattern steps significand : Nat}
    (place : format.InPlace pattern steps significand) :
    format.magnitude pattern = significand * 2 ^ (format.leastExponent + steps) := by
  rw [place.eq, magnitude_place place.bounded.le place.normal]

theorem InPlace.pattern_eq_zero_iff {pattern steps significand : Nat}
    (place : format.InPlace pattern steps significand) : pattern = 0 ↔ significand = 0 := by
  have width : 0 < 2 ^ format.fractionBits := by positivity
  have eq := place.eq
  constructor
  · intro zero
    omega
  · intro zero
    rcases place.normal with rfl | full
    · omega
    · omega

theorem magnitude_lt_succ (pattern : Nat) :
    format.magnitude pattern < format.magnitude (pattern + 1) := by
  obtain ⟨steps, significand, rfl, bounded, normal⟩ := format.exists_place pattern
  rw [add_assoc, magnitude_place bounded.le normal, magnitude_place bounded (by omega)]
  have unit : (0 : ℚ) < 2 ^ (format.leastExponent + steps) := by positivity
  push_cast
  linarith

theorem magnitude_strictMono : StrictMono format.magnitude :=
  strictMono_nat_of_lt_succ magnitude_lt_succ

@[simp] theorem magnitude_zero : format.magnitude 0 = 0 := by
  simp [magnitude]

theorem magnitude_nonneg (pattern : Nat) : 0 ≤ format.magnitude pattern := by
  rw [← format.magnitude_zero]
  exact magnitude_strictMono.monotone (Nat.zero_le pattern)

def midpoint (format : BinaryFormat) (pattern : Nat) : ℚ :=
  (format.magnitude pattern + format.magnitude (pattern + 1)) / 2

theorem midpoint_strictMono : StrictMono format.midpoint := by
  refine strictMono_nat_of_lt_succ fun pattern => ?_
  have first := format.magnitude_lt_succ pattern
  have second := format.magnitude_lt_succ (pattern + 1)
  unfold midpoint
  linarith

theorem magnitude_lt_midpoint (pattern : Nat) :
    format.magnitude pattern < format.midpoint pattern := by
  have step := format.magnitude_lt_succ pattern
  unfold midpoint
  linarith

theorem midpoint_lt_magnitude (pattern : Nat) :
    format.midpoint pattern < format.magnitude (pattern + 1) := by
  have step := format.magnitude_lt_succ pattern
  unfold midpoint
  linarith

theorem midpoint_place {steps significand : Nat}
    (bounded : significand < 2 ^ (format.fractionBits + 1))
    (normal : steps = 0 ∨ 2 ^ format.fractionBits ≤ significand) :
    format.midpoint (steps * 2 ^ format.fractionBits + significand) =
      (significand + 1 / 2) * 2 ^ (format.leastExponent + steps) := by
  rw [midpoint, add_assoc, magnitude_place bounded.le normal, magnitude_place bounded (by omega)]
  push_cast
  ring

/-! ## The nearest pattern -/

/-- The pattern is the one that a number rounds to. A number half-way between two patterns rounds
to the even one. -/
structure RoundsTo (format : BinaryFormat) (real : ℚ) (pattern : Nat) : Prop where
  le_infinity : pattern ≤ format.infinityPattern
  above : ∀ below, below + 1 = pattern →
    format.midpoint below < real ∨ (format.midpoint below = real ∧ pattern % 2 = 0)
  below : pattern < format.infinityPattern →
    real < format.midpoint pattern ∨ (real = format.midpoint pattern ∧ pattern % 2 = 0)

namespace RoundsTo

variable {real other : ℚ} {pattern otherPattern : Nat}

theorem mono (rounds : RoundsTo format real pattern) (others : RoundsTo format other otherPattern)
    (le : real ≤ other) : pattern ≤ otherPattern := by
  by_contra less
  obtain ⟨before, rfl⟩ : ∃ before, pattern = before + 1 := ⟨pattern - 1, by omega⟩
  have low := rounds.above before rfl
  have high := others.below (by have := rounds.le_infinity; omega)
  have ordered : format.midpoint otherPattern ≤ format.midpoint before :=
    midpoint_strictMono.monotone (by omega)
  -- Both numbers can only be the one midpoint between the patterns, and one of those is odd.
  rcases low with low | ⟨low, even⟩
  · rcases high with high | ⟨high, _⟩ <;> linarith
  · rcases high with high | ⟨high, otherEven⟩
    · linarith
    · have same : otherPattern = before := midpoint_strictMono.injective (by linarith)
      omega

theorem unique (rounds : RoundsTo format real pattern)
    (again : RoundsTo format real otherPattern) : pattern = otherPattern :=
  le_antisymm (rounds.mono again le_rfl) (again.mono rounds le_rfl)

theorem magnitude {pattern : Nat} (finite : pattern ≤ format.infinityPattern) :
    RoundsTo format (format.magnitude pattern) pattern where
  le_infinity := finite
  above := by
    rintro before rfl
    exact .inl (midpoint_lt_magnitude before)
  below _ := .inl (magnitude_lt_midpoint pattern)

theorem midpoint_le (rounds : RoundsTo format real pattern) {before : Nat}
    (next : before + 1 = pattern) : format.midpoint before ≤ real :=
  (rounds.above before next).elim le_of_lt fun tie => tie.1.le

theorem le_midpoint (rounds : RoundsTo format real pattern)
    (finite : pattern < format.infinityPattern) : real ≤ format.midpoint pattern :=
  (rounds.below finite).elim le_of_lt fun tie => tie.1.le

theorem half_le (rounds : RoundsTo format real pattern) (positive : pattern ≠ 0) :
    2 ^ (format.leastExponent - 1) ≤ real := by
  obtain ⟨before, rfl⟩ := Nat.exists_eq_succ_of_ne_zero positive
  have half : format.midpoint 0 = 2 ^ (format.leastExponent - 1) := by
    have place := @midpoint_place format 0 0 (by positivity) (.inl rfl)
    rw [Nat.zero_mul, Nat.zero_add, Nat.cast_zero, zero_add, Nat.cast_zero, add_zero] at place
    rw [place, zpow_sub_one₀ two_ne_zero, one_div, mul_comm]
  rw [← half]
  exact (midpoint_strictMono.monotone (Nat.zero_le before)).trans (rounds.midpoint_le rfl)

theorem lt_infinity (rounds : RoundsTo format real pattern)
    (finite : pattern < format.infinityPattern) :
    real < format.magnitude format.infinityPattern := by
  have next : format.magnitude (pattern + 1) ≤ format.magnitude format.infinityPattern :=
    magnitude_strictMono.monotone finite
  exact (rounds.le_midpoint finite).trans_lt ((midpoint_lt_magnitude pattern).trans_le next)

end RoundsTo

/-! ## Rounding to a whole number -/

structure NearestWhole (real : ℚ) (whole : Nat) : Prop where
  above : (whole : ℚ) - 1 / 2 < real ∨ ((whole : ℚ) - 1 / 2 = real ∧ whole % 2 = 0)
  below : real < whole + 1 / 2 ∨ (real = whole + 1 / 2 ∧ whole % 2 = 0)

section

variable {remainder denominator : Nat}

theorem quotient_eq_add (numerator : Nat) (positive : 0 < denominator) :
    (numerator : ℚ) / denominator =
      (numerator / denominator : Nat) + (numerator % denominator : Nat) / denominator := by
  have scale : (0 : ℚ) < denominator := by exact_mod_cast positive
  have whole : (numerator : ℚ) =
      denominator * (numerator / denominator : Nat) + (numerator % denominator : Nat) := by
    exact_mod_cast (Nat.div_add_mod numerator denominator).symm
  rw [whole]
  field_simp

theorem lt_half_iff (positive : 0 < denominator) :
    (remainder : ℚ) / denominator < 1 / 2 ↔ 2 * remainder < denominator := by
  rw [div_lt_div_iff₀ (by exact_mod_cast positive) two_pos, one_mul, mul_comm]
  exact_mod_cast Iff.rfl

theorem half_lt_iff (positive : 0 < denominator) :
    1 / 2 < (remainder : ℚ) / denominator ↔ denominator < 2 * remainder := by
  rw [div_lt_div_iff₀ two_pos (by exact_mod_cast positive), one_mul, mul_comm (remainder : ℚ)]
  exact_mod_cast Iff.rfl

theorem eq_half_iff (positive : 0 < denominator) :
    (remainder : ℚ) / denominator = 1 / 2 ↔ 2 * remainder = denominator := by
  rw [div_eq_div_iff (by exact_mod_cast positive.ne') two_ne_zero, one_mul, mul_comm]
  exact_mod_cast Iff.rfl

theorem fraction_lt_one (less : remainder < denominator) :
    (remainder : ℚ) / denominator < 1 := by
  rw [div_lt_one (by exact_mod_cast Nat.zero_lt_of_lt less)]
  exact_mod_cast less

end

theorem nearestWhole_quotient (numerator : Nat) {denominator : Nat} (positive : 0 < denominator) :
    NearestWhole (numerator / denominator) (nearestEvenQuotient numerator denominator) := by
  have part : (0 : ℚ) ≤ (numerator % denominator : Nat) / denominator := by positivity
  have below := fraction_lt_one (Nat.mod_lt numerator positive)
  rw [quotient_eq_add numerator positive, nearestEvenQuotient]
  split
  · rename_i low
    have lower := (lt_half_iff positive).mpr low
    exact ⟨.inl (by linarith), .inl (by linarith)⟩
  · split
    · rename_i high
      have upper := (half_lt_iff positive).mpr high
      exact ⟨.inl (by push_cast; linarith), .inl (by push_cast; linarith)⟩
    · rename_i notLow notHigh
      have half := (eq_half_iff positive).mpr
        (show 2 * (numerator % denominator) = denominator by omega)
      rw [half]
      rcases Nat.mod_two_eq_zero_or_one (numerator / denominator) with even | odd
      · rw [even]
        exact ⟨.inl (by push_cast; linarith), .inr ⟨by push_cast; ring, by omega⟩⟩
      · rw [odd]
        exact ⟨.inr ⟨by push_cast; ring, by omega⟩, .inl (by push_cast; linarith)⟩

namespace NearestWhole

variable {real : ℚ} {whole bound : Nat}

theorem le (nearest : NearestWhole real whole) (less : real < bound) : whole ≤ bound := by
  have half : (whole : ℚ) - 1 / 2 ≤ real := nearest.above.elim le_of_lt fun tie => tie.1.le
  by_contra greater
  have next : (bound : ℚ) + 1 ≤ whole := by exact_mod_cast Nat.lt_of_not_le greater
  linarith

theorem ge (nearest : NearestWhole real whole) (greater : (bound : ℚ) ≤ real) :
    bound ≤ whole := by
  have half : real ≤ (whole : ℚ) + 1 / 2 := nearest.below.elim le_of_lt fun tie => tie.1.le
  by_contra less
  have next : (whole : ℚ) + 1 ≤ bound := by exact_mod_cast Nat.lt_of_not_le less
  linarith

end NearestWhole

/-! ## Rounding in a place -/

theorem midpoint_below_place {steps significand below : Nat}
    (fits : significand ≤ 2 ^ (format.fractionBits + 1))
    (normal : steps = 0 ∨ 2 ^ format.fractionBits ≤ significand)
    (next : below + 1 = steps * 2 ^ format.fractionBits + significand) :
    (¬(steps ≠ 0 ∧ significand = 2 ^ format.fractionBits) ∧
      format.midpoint below = (significand - 1 / 2) * 2 ^ (format.leastExponent + steps)) ∨
    ((steps ≠ 0 ∧ significand = 2 ^ format.fractionBits) ∧
      format.midpoint below = (significand - 1 / 4) * 2 ^ (format.leastExponent + steps)) := by
  by_cases edge : steps ≠ 0 ∧ significand = 2 ^ format.fractionBits
  · refine .inr ⟨edge, ?_⟩
    obtain ⟨inner, least⟩ := edge
    obtain ⟨fewer, rfl⟩ := Nat.exists_eq_succ_of_ne_zero inner
    have width : 0 < 2 ^ format.fractionBits := by positivity
    have double := pow_succ 2 format.fractionBits
    have same : below = fewer * 2 ^ format.fractionBits + (2 ^ (format.fractionBits + 1) - 1) := by
      rw [least, Nat.succ_mul] at next
      omega
    have one : 1 ≤ 2 ^ (format.fractionBits + 1) := Nat.one_le_two_pow
    rw [same, midpoint_place (by omega) (.inr (by omega)), least, Nat.succ_eq_add_one]
    push_cast [one]
    rw [← add_assoc, zpow_add_one₀ two_ne_zero, pow_succ]
    ring
  · have width : 0 < 2 ^ format.fractionBits := by positivity
    obtain ⟨before, rfl⟩ : ∃ before, significand = before + 1 := by
      refine ⟨significand - 1, ?_⟩
      rcases normal with rfl | large <;> omega
    obtain rfl : below = steps * 2 ^ format.fractionBits + before := by omega
    refine .inl ⟨edge, ?_⟩
    rw [midpoint_place fits (by omega)]
    push_cast
    ring

/-- A number rounds to the significand of its place that is nearest to it. A significand that has
become too long stands for the first number of the next place. -/
theorem roundsTo_place (fractions : format.fractionBits ≠ 0) {real : ℚ} {steps significand : Nat}
    (bounded : real < 2 ^ (format.fractionBits + 1) * 2 ^ (format.leastExponent + steps))
    (normal : steps = 0 ∨ 2 ^ format.fractionBits * 2 ^ (format.leastExponent + steps) ≤ real)
    (nearest : NearestWhole (real / 2 ^ (format.leastExponent + steps)) significand) :
    RoundsTo format real
      (min (steps * 2 ^ format.fractionBits + significand) format.infinityPattern) := by
  have unit : (0 : ℚ) < 2 ^ (format.leastExponent + steps) := by positivity
  have fits : significand ≤ 2 ^ (format.fractionBits + 1) :=
    nearest.le (by push_cast; rwa [div_lt_iff₀ unit])
  have full : steps = 0 ∨ 2 ^ format.fractionBits ≤ significand :=
    normal.imp_right fun large => nearest.ge (by push_cast; rwa [le_div_iff₀ unit])
  have parity : (steps * 2 ^ format.fractionBits + significand) % 2 = significand % 2 := by
    rw [← Nat.succ_pred fractions, pow_succ, ← mul_assoc, Nat.mul_add_mod_self_right]
  -- The pattern below may be of the place below, which only makes the midpoint smaller.
  have above : ∀ below, below + 1 = steps * 2 ^ format.fractionBits + significand →
      format.midpoint below < real ∨ (format.midpoint below = real ∧ significand % 2 = 0) := by
    intro below next
    rcases midpoint_below_place fits full next with ⟨-, place⟩ | ⟨⟨inner, least⟩, -⟩
    · rw [place, ← lt_div_iff₀ unit, ← eq_div_iff unit.ne']
      exact nearest.above
    · left
      refine lt_of_lt_of_le (midpoint_lt_magnitude below) ?_
      rw [next, magnitude_place fits full, least]
      push_cast
      exact normal.resolve_left inner
  have below : real < format.midpoint (steps * 2 ^ format.fractionBits + significand) ∨
      (real = format.midpoint (steps * 2 ^ format.fractionBits + significand) ∧
        significand % 2 = 0) := by
    rcases fits.lt_or_eq with inside | long
    · rw [midpoint_place inside full, ← div_lt_iff₀ unit, ← div_eq_iff unit.ne']
      exact nearest.below
    · left
      refine lt_trans ?_ (magnitude_lt_midpoint _)
      rw [magnitude_place fits full, long]
      push_cast
      exact bounded
  -- Infinity has no midpoint above it, and the one below it was passed before.
  rcases Nat.lt_or_ge format.infinityPattern (steps * 2 ^ format.fractionBits + significand)
    with beyond | within
  · rw [min_eq_right beyond.le]
    refine ⟨le_rfl, ?_, fun finite => absurd finite (lt_irrefl _)⟩
    intro before next
    obtain ⟨last, same⟩ : ∃ last, last + 1 = steps * 2 ^ format.fractionBits + significand :=
      ⟨steps * 2 ^ format.fractionBits + significand - 1, by omega⟩
    have ordered := format.midpoint_strictMono (show before < last by omega)
    left
    rcases above last same with less | ⟨equal, _⟩ <;> linarith
  · rw [min_eq_left within]
    refine ⟨within, ?_, fun _ => parity ▸ below⟩
    exact fun before next => parity ▸ above before next

/-! ## The nearest pattern as it is computed -/

theorem zpow_eq_div (base : ℚ) (exponent : ℤ) :
    base ^ exponent = base ^ exponent.toNat / base ^ (-exponent).toNat := by
  rcases le_total 0 exponent with positive | negative
  · obtain ⟨natural, rfl⟩ := Int.eq_ofNat_of_zero_le positive
    simp
  · obtain ⟨natural, same⟩ := Int.eq_ofNat_of_zero_le (Int.neg_nonneg.mpr negative)
    obtain rfl : exponent = -(natural : ℤ) := by omega
    simp

theorem quotient_between {numerator denominator : Nat} (numerators : numerator ≠ 0)
    (denominators : denominator ≠ 0) :
    (2 : ℚ) ^ ((numerator.log2 : ℤ) - denominator.log2 - 1) ≤ numerator / denominator ∧
      (numerator : ℚ) / denominator < 2 ^ ((numerator.log2 : ℤ) - denominator.log2 + 1) := by
  have scale : (0 : ℚ) < denominator := by exact_mod_cast Nat.pos_of_ne_zero denominators
  have least : (2 : ℚ) ^ numerator.log2 ≤ numerator := by
    exact_mod_cast Nat.log2_self_le numerators
  have greatest : (numerator : ℚ) < 2 ^ (numerator.log2 + 1) := by
    exact_mod_cast Nat.lt_log2_self
  have leastBelow : (2 : ℚ) ^ denominator.log2 ≤ denominator := by
    exact_mod_cast Nat.log2_self_le denominators
  have greatestBelow : (denominator : ℚ) < 2 ^ (denominator.log2 + 1) := by
    exact_mod_cast Nat.lt_log2_self
  have low : (2 : ℚ) ^ ((numerator.log2 : ℤ) - denominator.log2 - 1) =
      2 ^ numerator.log2 / 2 ^ (denominator.log2 + 1) := by
    rw [sub_sub, zpow_sub₀ two_ne_zero]
    norm_cast
  have high : (2 : ℚ) ^ ((numerator.log2 : ℤ) - denominator.log2 + 1) =
      2 ^ (numerator.log2 + 1) / 2 ^ denominator.log2 := by
    rw [sub_add_eq_add_sub, zpow_sub₀ two_ne_zero]
    norm_cast
  rw [low, high]
  exact ⟨by gcongr, by gcongr⟩

theorem scaled_le_iff {numerator denominator : Nat} (denominators : denominator ≠ 0)
    (exponent : ℤ) :
    denominator * twoTo exponent.toNat ≤ numerator * twoTo (-exponent).toNat ↔
      (2 : ℚ) ^ exponent ≤ numerator / denominator := by
  have scale : (0 : ℚ) < denominator := by exact_mod_cast Nat.pos_of_ne_zero denominators
  rw [zpow_eq_div, div_le_div_iff₀ (by positivity) scale, twoTo_eq, twoTo_eq, mul_comm denominator]
  exact_mod_cast Iff.rfl

theorem pow_mul_zpow (bits : Nat) (exponent : ℤ) :
    (2 : ℚ) ^ bits * 2 ^ exponent = 2 ^ (bits + exponent) := by
  rw [zpow_add₀ two_ne_zero, zpow_natCast]

theorem placeExponent_spec (format : BinaryFormat) {numerator denominator : Nat}
    (numerators : numerator ≠ 0) (denominators : denominator ≠ 0) :
    format.leastExponent ≤ format.placeExponent numerator denominator ∧
      (numerator : ℚ) / denominator <
        2 ^ (format.fractionBits + 1) * 2 ^ format.placeExponent numerator denominator ∧
      (format.placeExponent numerator denominator = format.leastExponent ∨
        2 ^ format.fractionBits * 2 ^ format.placeExponent numerator denominator ≤
          (numerator : ℚ) / denominator) := by
  obtain ⟨low, high⟩ := quotient_between numerators denominators
  -- Before it is raised to the least one, the exponent has the fraction fill its place.
  obtain ⟨exponent, place, below, above⟩ : ∃ exponent,
      format.placeExponent numerator denominator = max exponent format.leastExponent ∧
      (2 : ℚ) ^ (format.fractionBits + exponent) ≤ numerator / denominator ∧
      (numerator : ℚ) / denominator < 2 ^ (format.fractionBits + 1 + exponent) := by
    have fitsIff := @scaled_le_iff numerator denominator denominators
      ((numerator.log2 : ℤ) - denominator.log2 - format.fractionBits + format.fractionBits)
    by_cases fits : denominator * twoTo ((numerator.log2 : ℤ) - denominator.log2 -
        format.fractionBits + format.fractionBits).toNat ≤ numerator * twoTo
          (-((numerator.log2 : ℤ) - denominator.log2 -
            format.fractionBits + format.fractionBits)).toNat
    · refine ⟨(numerator.log2 : ℤ) - denominator.log2 - format.fractionBits,
        by rw [placeExponent, if_pos fits], ?_, ?_⟩
      · rw [add_comm]
        exact fitsIff.mp fits
      · exact lt_of_lt_of_eq high (by congr 1; omega)
    · refine ⟨(numerator.log2 : ℤ) - denominator.log2 - format.fractionBits - 1,
        by rw [placeExponent, if_neg fits], ?_, ?_⟩
      · exact le_of_eq_of_le (by congr 1; omega) low
      · exact lt_of_lt_of_eq (lt_of_not_ge (fitsIff.not.mp fits)) (by congr 1; omega)
  rw [place, pow_mul_zpow, pow_mul_zpow]
  refine ⟨le_max_right _ _, lt_of_lt_of_le above ?_, ?_⟩
  · push_cast
    gcongr
    · norm_num
    · exact le_max_left _ _
  · rcases le_total exponent format.leastExponent with less | greater
    · exact .inl (max_eq_right less)
    · right
      rwa [max_eq_left greater]

theorem nearest_rounds (format : BinaryFormat) (fractions : format.fractionBits ≠ 0)
    (numerator : Nat) {denominator : Nat} (positive : 0 < denominator) :
    RoundsTo format (numerator / denominator) (format.nearest false numerator denominator) := by
  rcases eq_or_ne numerator 0 with rfl | nonzero
  · have zero : format.nearest false 0 denominator = 0 := rfl
    rw [zero]
    simpa using RoundsTo.magnitude (Nat.zero_le format.infinityPattern)
  · obtain ⟨atLeast, bounded, normal⟩ :=
      format.placeExponent_spec nonzero positive.ne'
    have shift := Int.toNat_of_nonneg (Int.sub_nonneg.mpr atLeast)
    have place : format.placeExponent numerator denominator = format.leastExponent +
        (format.placeExponent numerator denominator - format.leastExponent).toNat := by
      omega
    have magnitude : format.nearest false numerator denominator =
        min ((format.placeExponent numerator denominator - format.leastExponent).toNat *
            2 ^ format.fractionBits +
          nearestEvenQuotient
            (numerator * twoTo (-format.placeExponent numerator denominator).toNat)
            (denominator * twoTo (format.placeExponent numerator denominator).toNat))
          format.infinityPattern := by
      rw [nearest, if_neg nonzero]
      exact Nat.zero_add _
    rw [magnitude]
    have scaled : NearestWhole
        ((numerator * twoTo (-format.placeExponent numerator denominator).toNat : Nat) /
          (denominator * twoTo (format.placeExponent numerator denominator).toNat : Nat)) _ :=
      nearestWhole_quotient _ (Nat.mul_pos positive (Nat.two_pow_pos _))
    rw [place] at bounded normal
    refine roundsTo_place fractions bounded (normal.imp_left fun least => by omega) ?_
    -- The quotient of whole numbers is the fraction in units of its place.
    convert scaled using 1
    rw [← place, zpow_eq_div 2 (format.placeExponent numerator denominator), twoTo_eq, twoTo_eq]
    push_cast
    field_simp

/-! ## Patterns with their values -/

theorem infinityPattern_eq (format : BinaryFormat) :
    format.infinityPattern = (2 ^ format.exponentBits - 1) * 2 ^ format.fractionBits := rfl

theorem fields_of_sign (format : BinaryFormat) (negative : Bool) {pattern : Nat}
    (less : pattern / 2 ^ format.fractionBits < 2 ^ format.exponentBits) :
    (format.signPattern negative + pattern) % 2 ^ format.fractionBits =
        pattern % 2 ^ format.fractionBits ∧
      (format.signPattern negative + pattern) / 2 ^ format.fractionBits %
        2 ^ format.exponentBits = pattern / 2 ^ format.fractionBits ∧
      ((format.signPattern negative + pattern) /
        2 ^ (format.fractionBits + format.exponentBits) % 2 == 1) = negative := by
  have width : 0 < 2 ^ format.fractionBits := by positivity
  have sign : format.signPattern negative =
      2 ^ format.fractionBits * (2 ^ format.exponentBits * negative.toNat) := by
    cases negative
    · rfl
    · exact (pow_add 2 _ _).trans (by simp)
  have quotient : (format.signPattern negative + pattern) / 2 ^ format.fractionBits =
      2 ^ format.exponentBits * negative.toNat + pattern / 2 ^ format.fractionBits := by
    rw [sign, Nat.mul_add_div width]
  refine ⟨?_, ?_, ?_⟩
  · rw [sign, Nat.mul_add_mod]
  · rw [quotient, Nat.mul_add_mod, Nat.mod_eq_of_lt less]
  · rw [pow_add, ← Nat.div_div_eq_div_mul, quotient, Nat.mul_add_div (by positivity),
      Nat.div_eq_of_lt less]
    cases negative <;> rfl

theorem decode_of_place {pattern steps significand : Nat}
    (place : format.InPlace pattern steps significand) (finite : pattern < format.infinityPattern)
    (negative : Bool) :
    format.decode (format.signPattern negative + pattern) =
      .finite negative significand (format.leastExponent + steps) := by
  have width : 0 < 2 ^ format.fractionBits := by positivity
  have biasedLess : pattern / 2 ^ format.fractionBits < 2 ^ format.exponentBits - 1 :=
    (Nat.div_lt_iff_lt_mul width).mpr finite
  obtain ⟨fraction, biased, signBit⟩ :=
    format.fields_of_sign negative (Nat.lt_of_lt_of_le biasedLess (Nat.sub_le _ _))
  simp only [decode, twoTo_eq, fraction, biased, signBit]
  rw [if_neg biasedLess.ne]
  have double := pow_succ 2 format.fractionBits
  have bounded := place.bounded
  rcases Nat.lt_or_ge significand (2 ^ format.fractionBits) with small | large
  · obtain rfl : steps = 0 := by have := place.normal; omega
    have same : pattern = significand := by have := place.eq; omega
    rw [same, Nat.div_eq_of_lt small, Nat.mod_eq_of_lt small]
    simp
  · obtain ⟨rest, rfl⟩ := Nat.exists_eq_add_of_le large
    have same : pattern = 2 ^ format.fractionBits * (steps + 1) + rest := by
      rw [place.eq]
      ring
    have inside : rest < 2 ^ format.fractionBits := by omega
    rw [same, Nat.mul_add_div width, Nat.mul_add_mod, Nat.div_eq_of_lt inside,
      Nat.mod_eq_of_lt inside, if_neg (by omega)]
    simp [add_comm]

theorem inPlace_twoPower (format : BinaryFormat) (steps : Nat) :
    format.InPlace ((steps + 1) * 2 ^ format.fractionBits) steps (2 ^ format.fractionBits) where
  eq := by ring
  bounded := Nat.pow_lt_pow_succ one_lt_two
  normal := .inr le_rfl

namespace RoundsTo

variable {real : ℚ} {pattern : Nat}

theorem error_le (rounds : RoundsTo format real pattern)
    (finite : pattern < format.infinityPattern) {steps significand : Nat}
    (place : format.InPlace pattern steps significand) (nonneg : 0 ≤ real) :
    |format.magnitude pattern - real| ≤ 2 ^ (format.leastExponent + steps) / 2 := by
  have unit : (0 : ℚ) < 2 ^ (format.leastExponent + steps) := by positivity
  have high : real ≤ (significand + 1 / 2) * 2 ^ (format.leastExponent + steps) := by
    rw [← midpoint_place place.bounded place.normal, ← place.eq]
    exact rounds.le_midpoint finite
  have low : (significand - 1 / 2) * 2 ^ (format.leastExponent + steps) ≤ real := by
    rcases pattern with _ | before
    · have zero : significand = 0 := place.pattern_eq_zero_iff.mp rfl
      rw [zero]
      push_cast
      linarith
    · refine le_trans ?_ (rounds.midpoint_le rfl)
      rcases midpoint_below_place place.bounded.le place.normal place.eq with
        ⟨-, same⟩ | ⟨-, same⟩
      · exact same.ge
      · rw [same]
        gcongr
        norm_num
  rw [place.magnitude_eq, abs_le]
  constructor <;> linarith

theorem relative_error (rounds : RoundsTo format real pattern)
    (finite : pattern < format.infinityPattern) (nonneg : 0 ≤ real)
    (normal : 2 ^ format.fractionBits * 2 ^ format.leastExponent ≤ format.magnitude pattern) :
    |format.magnitude pattern - real| * 2 ^ (format.fractionBits + 1) ≤
      format.magnitude pattern := by
  obtain ⟨steps, significand, place⟩ := format.exists_place pattern
  have unit : (0 : ℚ) < 2 ^ (format.leastExponent + steps) := by positivity
  have full : (2 ^ format.fractionBits : ℚ) ≤ significand := by
    rcases place.normal with rfl | full
    · rw [place.magnitude_eq, Nat.cast_zero, add_zero] at normal
      exact le_of_mul_le_mul_right normal (by positivity)
    · exact_mod_cast full
  calc |format.magnitude pattern - real| * 2 ^ (format.fractionBits + 1)
      ≤ 2 ^ (format.leastExponent + steps) / 2 * 2 ^ (format.fractionBits + 1) := by
        gcongr
        exact rounds.error_le finite place nonneg
    _ = 2 ^ format.fractionBits * 2 ^ (format.leastExponent + steps) := by ring
    _ ≤ significand * 2 ^ (format.leastExponent + steps) := by gcongr
    _ = format.magnitude pattern := place.magnitude_eq.symm

end RoundsTo

theorem exists_pattern (format : BinaryFormat) {steps significand : Nat}
    (bounded : significand < 2 ^ (format.fractionBits + 1))
    (small : steps + 2 < 2 ^ format.exponentBits) :
    ∃ pattern < format.infinityPattern,
      format.magnitude pattern = significand * 2 ^ (format.leastExponent + steps) := by
  have width : 0 < 2 ^ format.fractionBits := by positivity
  rcases Nat.eq_zero_or_pos significand with rfl | positive
  · refine ⟨0, ?_, by simp⟩
    rw [infinityPattern_eq]
    exact Nat.mul_pos (by omega) width
  · -- The significand is moved up as far as it has room and the exponent allows.
    have short : significand.log2 ≤ format.fractionBits :=
      Nat.lt_succ_iff.mp ((Nat.log2_lt positive.ne').mpr bounded)
    obtain ⟨room, same⟩ : ∃ room, room = min steps (format.fractionBits - significand.log2) :=
      ⟨_, rfl⟩
    obtain ⟨rest, rfl⟩ := Nat.exists_eq_add_of_le (show room ≤ steps by omega)
    have fits : significand * 2 ^ room < 2 ^ (format.fractionBits + 1) := by
      calc significand * 2 ^ room
          < 2 ^ (significand.log2 + 1) * 2 ^ room :=
            Nat.mul_lt_mul_of_pos_right Nat.lt_log2_self (by positivity)
        _ = 2 ^ (significand.log2 + 1 + room) := (pow_add _ _ _).symm
        _ ≤ 2 ^ (format.fractionBits + 1) := Nat.pow_le_pow_right two_pos (by omega)
    have normal : rest = 0 ∨ 2 ^ format.fractionBits ≤ significand * 2 ^ room := by
      rcases Nat.eq_zero_or_pos rest with none | some
      · exact .inl none
      · right
        calc 2 ^ format.fractionBits = 2 ^ (significand.log2 + room) := by congr 1; omega
          _ = 2 ^ significand.log2 * 2 ^ room := pow_add _ _ _
          _ ≤ significand * 2 ^ room := Nat.mul_le_mul_right _ (Nat.log2_self_le positive.ne')
    refine ⟨rest * 2 ^ format.fractionBits + significand * 2 ^ room, ?_, ?_⟩
    · rw [infinityPattern_eq]
      calc rest * 2 ^ format.fractionBits + significand * 2 ^ room
          < rest * 2 ^ format.fractionBits + 2 ^ (format.fractionBits + 1) := by omega
        _ = (rest + 2) * 2 ^ format.fractionBits := by ring
        _ ≤ (2 ^ format.exponentBits - 1) * 2 ^ format.fractionBits :=
            Nat.mul_le_mul_right _ (by omega)
    · rw [magnitude_place fits.le normal]
      push_cast
      rw [mul_assoc, pow_mul_zpow]
      congr 2
      ring

theorem RoundsTo.exact {steps significand pattern : Nat}
    (rounds : RoundsTo format (significand * 2 ^ (format.leastExponent + steps)) pattern)
    (bounded : significand < 2 ^ (format.fractionBits + 1))
    (small : steps + 2 < 2 ^ format.exponentBits) :
    pattern < format.infinityPattern ∧
      format.magnitude pattern = significand * 2 ^ (format.leastExponent + steps) := by
  obtain ⟨same, finite, magnitude⟩ := format.exists_pattern bounded small
  have itself := RoundsTo.magnitude finite.le
  rw [magnitude] at itself
  rw [rounds.unique itself]
  exact ⟨finite, magnitude⟩

end BinaryFormat

end RangeRecall
