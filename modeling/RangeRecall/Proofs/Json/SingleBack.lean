import RangeRecall.Proofs.Decimal.Separation
import RangeRecall.Proofs.Decimal.Shortest
import RangeRecall.Proofs.Json.ScaledNumber

/-! The shortest decimal of a single-precision number is read back as the number, although it is
read through a double that is off by up to two roundings: no such decimal is that near to a
midpoint, except for those that are exact and two that are read correctly all the same. -/

namespace RangeRecall

open BinaryFormat (RoundsTo InPlace)
open Binary64 (IsNear)
open Separation (fineness longest IsMidpoint)

theorem Binary64.IsNear.near_between {number : Binary64} {real point : ℚ}
    (near : number.IsNear real)
    (between : (real ≤ point ∧ point ≤ number.magnitude) ∨
      (number.magnitude ≤ point ∧ point ≤ real)) :
    |real - point| * fineness ≤ point := by
  have error := near.error
  have nonneg : 0 ≤ number.magnitude := BinaryFormat.magnitude_nonneg _
  rw [fineness]
  rcases between with ⟨low, high⟩ | ⟨low, high⟩
  · rw [abs_of_nonneg (by linarith)] at error
    rw [abs_of_nonpos (by linarith)]
    norm_num at error ⊢
    linarith
  · rw [abs_of_nonpos (by linarith)] at error
    rw [abs_of_nonneg (by linarith)]
    norm_num at error ⊢
    linarith

namespace Json

variable {count odd : Nat} {power exponent : Int} {point : ℚ} {number : Binary64}

/-- A decimal and its double have a midpoint between them only if they are the midpoint, or if the
decimal is one of the exceptions. -/
theorem exact_of_crossed (read : scaled count power = .ok number) (positive : 0 < count)
    (few : count < 2 ^ 53) (midpoint : IsMidpoint point odd exponent)
    (coarse : (7 : ℚ) * 2 ^ exponent ≤ 5 * 10 ^ power)
    (near : |(count * 10 ^ power : ℚ) - point| * fineness ≤ point) :
    number.magnitude = count * 10 ^ power ∨
      (power = -32 ∧ (count = 7038531 ∨ count = 14077062)) := by
  refine (Separation.meets_or_exempt positive midpoint coarse near).imp_left ?_
  rintro ⟨leastPower, greatestPower, meet⟩
  have rounds := scaled_rounds few leastPower greatestPower read
  have least := midpoint.least
  have greatest := midpoint.greatest
  obtain ⟨steps, same⟩ : ∃ steps : Nat, exponent = -1074 + (steps : Int) :=
    ⟨(exponent + 1074).toNat, by omega⟩
  rw [meet, midpoint.eq, same] at rounds ⊢
  refine (rounds.exact (midpoint.short.trans (by decide)) ?_).2
  change steps + 2 < 2048
  omega

theorem exempt_back (exempt : power = -32 ∧ (count = 7038531 ∨ count = 14077062))
    (read : scaled count power = .ok number) {pattern : Nat}
    (rounds : RoundsTo .single (count * 10 ^ power) pattern) :
    number.toBinary32.bits.toNat = pattern := by
  have readBits {bits : Nat} (same : (scaled count power).toOption.map
      (fun number => number.toBinary32.bits.toNat) = some bits) :
      number.toBinary32.bits.toNat = bits := by
    rw [read] at same
    exact Option.some.inj same
  have nearest := BinaryFormat.nearest_rounds .single (by decide) count
    (show 0 < 10 ^ 32 by decide)
  obtain ⟨rfl, exempt⟩ := exempt
  have quotient : (count * 10 ^ (-32 : Int) : ℚ) = count / (10 ^ 32 : Nat) := by
    rw [zpow_neg, ← div_eq_mul_inv]
    norm_cast
  rw [quotient] at rounds
  rw [rounds.unique nearest]
  obtain rfl | rfl := exempt
  · exact readBits (by decide +kernel)
  · exact readBits (by decide +kernel)

theorem single_exponent_bounds {pattern : Nat} {interval : RoundingInterval} {decimal : Decimal}
    (short : decimal.IsShortFor .single pattern 9 interval) (positive : pattern ≠ 0)
    (finite : pattern < BinaryFormat.single.infinityPattern) :
    -60 ≤ decimal.exponent ∧ decimal.exponent ≤ 60 := by
  have infinity : BinaryFormat.single.magnitude BinaryFormat.single.infinityPattern =
      2 ^ 23 * 2 ^ (-149 + 254 : Int) := by
    have place := (BinaryFormat.single.inPlace_twoPower 254).magnitude_eq
    push_cast at place
    exact place
  have low : (2 : ℚ) ^ (-149 - 1 : Int) ≤ decimal.value := short.rounds.half_le positive
  have high := short.rounds.lt_infinity finite
  rw [infinity] at high
  refine short.exponent_bounds (lt_of_lt_of_le ?_ low) (high.trans ?_) <;> norm_num

/-! ## The midpoints around a number -/

variable {pattern before steps significand : Nat} {decimal : Decimal}

theorem steps_le (place : InPlace .single pattern steps significand)
    (finite : pattern < BinaryFormat.single.infinityPattern) : steps ≤ 253 := by
  have eq := place.eq
  have normal := place.normal
  change pattern < 255 * 2 ^ 23 at finite
  change pattern = steps * 2 ^ 23 + significand at eq
  change steps = 0 ∨ 2 ^ 23 ≤ significand at normal
  omega

theorem gap_above (place : InPlace .single pattern steps significand) :
    BinaryFormat.single.midpoint pattern - BinaryFormat.single.magnitude pattern =
      2 ^ (BinaryFormat.single.leastExponent + steps) / 2 := by
  rw [place.magnitude_eq, place.eq, BinaryFormat.midpoint_place place.bounded place.normal]
  ring

theorem gap_below (place : InPlace .single pattern steps significand)
    (next : before + 1 = pattern) :
    BinaryFormat.single.magnitude pattern - BinaryFormat.single.midpoint before =
        2 ^ (BinaryFormat.single.leastExponent + steps) / 2 ∨
      (steps ≠ 0 ∧ significand = 2 ^ 23 ∧
        BinaryFormat.single.magnitude pattern - BinaryFormat.single.midpoint before =
          2 ^ (BinaryFormat.single.leastExponent + steps) / 4) := by
  rw [place.magnitude_eq]
  rcases BinaryFormat.midpoint_below_place place.bounded.le place.normal (next.trans place.eq) with
    ⟨-, same⟩ | ⟨⟨inner, full⟩, same⟩
  · left
    rw [same]
    ring
  · refine .inr ⟨inner, full, ?_⟩
    rw [same]
    ring

theorem isMidpoint_above (place : InPlace .single pattern steps significand)
    (finite : pattern < BinaryFormat.single.infinityPattern) :
    IsMidpoint (BinaryFormat.single.midpoint pattern) (2 * significand + 1)
      (BinaryFormat.single.leastExponent + steps - 1) := by
  have fewSteps := steps_le place finite
  have bounded : significand < 2 ^ 24 := place.bounded
  have least : BinaryFormat.single.leastExponent = -149 := rfl
  refine ⟨?_, by omega, by rw [longest]; omega, by omega, by omega⟩
  rw [sub_eq_iff_eq_add.mp (gap_above place), place.magnitude_eq, zpow_sub_one₀ two_ne_zero]
  push_cast
  ring

theorem exists_isMidpoint_below (place : InPlace .single pattern steps significand)
    (finite : pattern < BinaryFormat.single.infinityPattern) (next : before + 1 = pattern) :
    ∃ odd exponent, IsMidpoint (BinaryFormat.single.midpoint before) odd exponent ∧
      BinaryFormat.single.magnitude pattern - BinaryFormat.single.midpoint before =
        2 ^ exponent := by
  have fewSteps := steps_le place finite
  have bounded : significand < 2 ^ 24 := place.bounded
  have least : BinaryFormat.single.leastExponent = -149 := rfl
  have one : 1 ≤ significand :=
    Nat.one_le_iff_ne_zero.mpr fun zero => by
      have := place.pattern_eq_zero_iff.mpr zero
      omega
  have magnitude := place.magnitude_eq
  rcases gap_below place next with gap | ⟨inner, full, gap⟩
  · have unit : (2 : ℚ) ^ (BinaryFormat.single.leastExponent + steps - 1) =
        2 ^ (BinaryFormat.single.leastExponent + steps) / 2 := zpow_sub_one₀ two_ne_zero _
    refine ⟨2 * significand - 1, BinaryFormat.single.leastExponent + steps - 1,
      ⟨?_, by omega, by rw [longest]; omega, by omega, by omega⟩, gap.trans unit.symm⟩
    rw [unit, Nat.cast_sub (by omega)]
    push_cast
    linarith
  · have unit : (2 : ℚ) ^ (BinaryFormat.single.leastExponent + steps - 2) =
        2 ^ (BinaryFormat.single.leastExponent + steps) / 4 := by
      rw [zpow_sub₀ two_ne_zero]
      norm_num
    refine ⟨4 * significand - 1, BinaryFormat.single.leastExponent + steps - 2,
      ⟨?_, by omega, by rw [longest]; omega, by omega, by omega⟩, gap.trans unit.symm⟩
    rw [unit, Nat.cast_sub (by omega)]
    push_cast
    linarith

theorem coarse_above (place : InPlace .single pattern steps significand) (positive : pattern ≠ 0)
    {unit real : ℚ} (nearest : (RoundingInterval.ofFinite .single significand
      (BinaryFormat.single.leastExponent + steps)).Nearest unit real)
    (less : real ≤ BinaryFormat.single.midpoint pattern)
    (close : |real - BinaryFormat.single.midpoint pattern| * 1000 ≤
      2 ^ (BinaryFormat.single.leastExponent + steps - 1)) :
    (7 : ℚ) * 2 ^ (BinaryFormat.single.leastExponent + steps - 1) ≤ 5 * unit := by
  obtain ⟨before, rfl⟩ := Nat.exists_eq_succ_of_ne_zero positive
  have last : (0 : ℚ) < 2 ^ (BinaryFormat.single.leastExponent + steps) := by positivity
  have upper := gap_above place
  have lower : (2 : ℚ) ^ (BinaryFormat.single.leastExponent + steps) / 4 ≤
      BinaryFormat.single.magnitude before.succ - BinaryFormat.single.midpoint before := by
    rcases gap_below place rfl with gap | ⟨-, -, gap⟩ <;> linarith
  have choose := nearest.above
  rw [RoundingInterval.middle_ofFinite place, RoundingInterval.lowerEnd_ofFinite place rfl]
    at choose
  rw [abs_of_nonpos (by linarith)] at close
  rw [zpow_sub_one₀ two_ne_zero] at close ⊢
  rcases choose (by linarith) with far | double
  · linarith
  · linarith

theorem coarse_below (place : InPlace .single pattern steps significand)
    (next : before + 1 = pattern) {unit real : ℚ}
    (nearest : (RoundingInterval.ofFinite .single significand
      (BinaryFormat.single.leastExponent + steps)).Nearest unit real)
    (greater : BinaryFormat.single.midpoint before ≤ real)
    (gap : BinaryFormat.single.magnitude pattern - BinaryFormat.single.midpoint before =
      2 ^ exponent)
    (close : |real - BinaryFormat.single.midpoint before| * 1000 ≤ 2 ^ exponent) :
    (7 : ℚ) * 2 ^ exponent ≤ 5 * unit := by
  have last : (0 : ℚ) < 2 ^ exponent := by positivity
  have upper := gap_above place
  have lower : (2 : ℚ) ^ exponent ≤ 2 ^ (BinaryFormat.single.leastExponent + steps) / 2 := by
    rcases gap_below place next with gap | ⟨-, -, gap⟩ <;> linarith
  have choose := nearest.below
  rw [RoundingInterval.middle_ofFinite place, RoundingInterval.upperEnd_ofFinite place] at choose
  rw [abs_of_nonneg (by linarith)] at close
  rcases choose (by linarith) with far | double
  · linarith
  · linarith

theorem exact_of_crossed_above (read : scaled count power = .ok number)
    (near : number.IsNear (count * 10 ^ power)) (some : 0 < count) (few : count < 2 ^ 53)
    (place : InPlace .single pattern steps significand) (positive : pattern ≠ 0)
    (finite : pattern < BinaryFormat.single.infinityPattern)
    (nearest : (RoundingInterval.ofFinite .single significand
      (BinaryFormat.single.leastExponent + steps)).Nearest (10 ^ power) (count * 10 ^ power))
    (low : (count * 10 ^ power : ℚ) ≤ BinaryFormat.single.midpoint pattern)
    (high : BinaryFormat.single.midpoint pattern ≤ number.magnitude) :
    number.magnitude = count * 10 ^ power ∨
      (power = -32 ∧ (count = 7038531 ∨ count = 14077062)) := by
  have nearMidpoint := near.near_between (.inl ⟨low, high⟩)
  have midpoint := isMidpoint_above place finite
  have coarse := coarse_above place positive nearest low (midpoint.close nearMidpoint)
  exact exact_of_crossed read some few midpoint coarse nearMidpoint

theorem exact_of_crossed_below (read : scaled count power = .ok number)
    (near : number.IsNear (count * 10 ^ power)) (some : 0 < count) (few : count < 2 ^ 53)
    (place : InPlace .single pattern steps significand)
    (finite : pattern < BinaryFormat.single.infinityPattern)
    (nearest : (RoundingInterval.ofFinite .single significand
      (BinaryFormat.single.leastExponent + steps)).Nearest (10 ^ power) (count * 10 ^ power))
    (next : before + 1 = pattern)
    (low : number.magnitude ≤ BinaryFormat.single.midpoint before)
    (high : (BinaryFormat.single.midpoint before : ℚ) ≤ count * 10 ^ power) :
    number.magnitude = count * 10 ^ power ∨
      (power = -32 ∧ (count = 7038531 ∨ count = 14077062)) := by
  have nearMidpoint := near.near_between (.inr ⟨low, high⟩)
  obtain ⟨odd, exponent, midpoint, gap⟩ := exists_isMidpoint_below place finite next
  have coarse := coarse_below place next nearest high gap (midpoint.close nearMidpoint)
  exact exact_of_crossed read some few midpoint coarse nearMidpoint

/-! ## Reading back -/

theorem shortest_back (place : InPlace .single pattern steps significand) (positive : pattern ≠ 0)
    (finite : pattern < BinaryFormat.single.infinityPattern)
    (short : decimal.IsShortFor .single pattern 9 (RoundingInterval.ofFinite .single significand
      (BinaryFormat.single.leastExponent + steps))) :
    ∃ number, scaled decimal.digits decimal.exponent = .ok number ∧ number.IsMeasure ∧
      number.toBinary32.bits.toNat = pattern := by
  have rounds : RoundsTo .single (decimal.digits * 10 ^ decimal.exponent) pattern := short.rounds
  obtain ⟨leastPower, greatestPower⟩ := single_exponent_bounds short positive finite
  have few : decimal.digits < 2 ^ 53 := Nat.lt_of_le_of_lt short.bounded (by decide)
  obtain ⟨number, read, near⟩ := scaled_near short.positive few leastPower greatestPower
  refine ⟨number, read, near.measure, ?_⟩
  have narrowed := (Binary64.toBinary32_rounds near.measure).1
  by_cases exempt : decimal.exponent = -32 ∧
      (decimal.digits = 7038531 ∨ decimal.digits = 14077062)
  · exact exempt_back exempt read rounds
  by_cases exact : number.magnitude = decimal.digits * 10 ^ decimal.exponent
  · exact narrowed.unique (exact ▸ rounds)
  -- The double is on the same side of both midpoints as the decimal.
  refine narrowed.unique ⟨finite.le, ?_, fun _ => ?_⟩
  · intro before next
    left
    by_contra crossed
    exact (exact_of_crossed_below read near short.positive few place finite short.nearest next
      (le_of_not_gt crossed) (rounds.midpoint_le next)).elim exact exempt
  · left
    by_contra crossed
    exact (exact_of_crossed_above read near short.positive few place positive finite short.nearest
      (rounds.le_midpoint finite) (le_of_not_gt crossed)).elim exact exempt

end Json

end RangeRecall
