import RangeRecall.Proofs.Numeric.DoubleBounds

/-! Arithmetic up to rounding. All that is known of a rounding is that it keeps the order of exact
results and does not move the integers that a double holds. Doubles have such a rounding, and so
has every arithmetic that rounds rational numbers after each operation. -/

namespace RangeRecall

open BinaryFormat (RoundsTo)

structure Rounding where
  round : ℚ → ℚ
  monotone : Monotone round
  exact : ∀ natural : Nat, natural ≤ 2 ^ 53 → round natural = natural

structure Rounded (rounding : Rounding) where
  value : ℚ

instance : RealArithmetic (Rounded rounding) where
  ofNat natural := ⟨rounding.round natural⟩
  add left right := ⟨rounding.round (left.value + right.value)⟩
  multiply left right := ⟨rounding.round (left.value * right.value)⟩
  divide left right := ⟨rounding.round (left.value / right.value)⟩
  roundToNat number := ⌊number.value + 1 / 2⌋.toNat

/-- An arithmetic whose numbers stand for rational ones as long as they are measures. The exact
results of its operations are rounded if they do not exceed the integers that are kept. -/
class RoundedArithmetic (α : Type) [RealArithmetic α] where
  rounding : Rounding
  value : α → ℚ
  IsMeasure : α → Prop
  value_nonneg : ∀ number, IsMeasure number → 0 ≤ value number
  ofNat_rounds : ∀ natural : Nat, natural ≤ 2 ^ 53 →
    IsMeasure (RealArithmetic.ofNat natural) ∧
      value (RealArithmetic.ofNat natural) = rounding.round natural
  add_rounds : ∀ left right, IsMeasure left → IsMeasure right →
    value left + value right ≤ 2 ^ 53 →
    IsMeasure (RealArithmetic.add left right) ∧
      value (RealArithmetic.add left right) = rounding.round (value left + value right)
  divide_rounds : ∀ left right, IsMeasure left → IsMeasure right → value right ≠ 0 →
    value left / value right ≤ 2 ^ 53 →
    IsMeasure (RealArithmetic.divide left right) ∧
      value (RealArithmetic.divide left right) = rounding.round (value left / value right)

/-! ## Bounds -/

namespace RoundedArithmetic

variable {α : Type} [RealArithmetic α] [RoundedArithmetic α]

structure Between (low high : Nat) (number : α) : Prop where
  measure : IsMeasure number
  low_le : (low : ℚ) ≤ value number
  le_high : value number ≤ high

namespace Between

variable {low high otherLow otherHigh : Nat} {left right number : α}

theorem of_rounds {real : ℚ} (rounds : IsMeasure number ∧
      value number = (rounding α).round real) (low_le : (low : ℚ) ≤ real) (le_high : real ≤ high)
    (small : high ≤ 2 ^ 53) : Between low high number where
  measure := rounds.1
  low_le := by
    have ordered : low ≤ high := by exact_mod_cast low_le.trans le_high
    rw [rounds.2, ← (rounding α).exact low (ordered.trans small)]
    exact (rounding α).monotone low_le
  le_high := by
    rw [rounds.2, ← (rounding α).exact high small]
    exact (rounding α).monotone le_high

theorem mono (between : Between low high number) (lower : otherLow ≤ low)
    (upper : high ≤ otherHigh) : Between otherLow otherHigh number where
  measure := between.measure
  low_le := (Nat.cast_le.mpr lower).trans between.low_le
  le_high := between.le_high.trans (Nat.cast_le.mpr upper)

theorem ofNat {natural : Nat} (small : natural ≤ 2 ^ 53) :
    Between natural natural (RealArithmetic.ofNat natural : α) :=
  of_rounds (ofNat_rounds natural small) le_rfl le_rfl small

theorem value_eq {natural : Nat} (between : Between natural natural number) :
    value number = natural :=
  le_antisymm between.le_high between.low_le

theorem add (leftBetween : Between low high left) (rightBetween : Between otherLow otherHigh right)
    (small : high + otherHigh ≤ 2 ^ 53) :
    Between (low + otherLow) (high + otherHigh) (RealArithmetic.add left right) := by
  have lower : ((low + otherLow : Nat) : ℚ) ≤ value left + value right := by
    rw [Nat.cast_add]
    exact add_le_add leftBetween.low_le rightBetween.low_le
  have upper : value left + value right ≤ (high + otherHigh : Nat) := by
    rw [Nat.cast_add]
    exact add_le_add leftBetween.le_high rightBetween.le_high
  have bounded : value left + value right ≤ 2 ^ 53 := upper.trans (by exact_mod_cast small)
  exact of_rounds (add_rounds left right leftBetween.measure rightBetween.measure bounded) lower
    upper small

theorem divide {parts : Nat} (leftBetween : Between (low * parts) (high * parts) left)
    (rightBetween : Between parts parts right) (some : parts ≠ 0) (small : high ≤ 2 ^ 53) :
    Between low high (RealArithmetic.divide left right) := by
  have divisor := rightBetween.value_eq
  have positive : (0 : ℚ) < parts := by exact_mod_cast Nat.pos_of_ne_zero some
  have nonzero : value right ≠ 0 := by
    rw [divisor]
    exact positive.ne'
  have lower : (low : ℚ) ≤ value left / value right := by
    rw [divisor, le_div_iff₀ positive]
    exact_mod_cast leftBetween.low_le
  have upper : value left / value right ≤ high := by
    rw [divisor, div_le_iff₀ positive]
    exact_mod_cast leftBetween.le_high
  have bounded : value left / value right ≤ 2 ^ 53 := upper.trans (by exact_mod_cast small)
  exact of_rounds (divide_rounds left right leftBetween.measure rightBetween.measure nonzero
    bounded) lower upper small

end Between

end RoundedArithmetic

/-! ## Rounded rational numbers -/

theorem Rounding.round_nonneg (rounding : Rounding) {real : ℚ} (nonneg : 0 ≤ real) :
    0 ≤ rounding.round real := by
  have zero := rounding.exact 0 (Nat.zero_le _)
  have ordered := rounding.monotone nonneg
  rwa [← Nat.cast_zero, zero, Nat.cast_zero] at ordered

instance (rounding : Rounding) : RoundedArithmetic (Rounded rounding) where
  rounding := rounding
  value := Rounded.value
  IsMeasure number := 0 ≤ number.value
  value_nonneg _ measure := measure
  ofNat_rounds natural _ := ⟨rounding.round_nonneg natural.cast_nonneg, rfl⟩
  add_rounds _ _ left right _ := ⟨rounding.round_nonneg (add_nonneg left right), rfl⟩
  divide_rounds _ _ left right _ _ := ⟨rounding.round_nonneg (div_nonneg left right), rfl⟩

/-! ## Doubles -/

namespace Binary64

def nearestPattern (real : ℚ) : Nat :=
  BinaryFormat.double.nearest false real.num.toNat real.den

theorem nearestPattern_rounds (real : ℚ) :
    RoundsTo .double (max real 0) (nearestPattern real) := by
  have rounds := BinaryFormat.nearest_rounds .double (by decide) real.num.toNat real.den_pos
  have same : (real.num.toNat : ℚ) / real.den = max real 0 := by
    rcases le_total 0 real with nonneg | nonpos
    · have num : ((real.num.toNat : ℤ) : ℚ) = real.num :=
        congrArg Int.cast (Int.toNat_of_nonneg (Rat.num_nonneg.mpr nonneg))
      rw [Int.cast_natCast] at num
      rw [num, Rat.num_div_den, max_eq_left nonneg]
    · have num : real.num.toNat = 0 := Int.toNat_of_nonpos (Rat.num_nonpos.mpr nonpos)
      rw [num, Nat.cast_zero, zero_div, max_eq_right nonpos]
  rwa [same] at rounds

theorem exists_natural {natural : Nat} (small : natural ≤ 2 ^ 53) :
    ∃ pattern < BinaryFormat.double.infinityPattern,
      BinaryFormat.double.magnitude pattern = natural := by
  rcases small.lt_or_eq with below | rfl
  · obtain ⟨pattern, finite, magnitude⟩ :=
      @BinaryFormat.exists_pattern .double 1074 natural below (by decide)
    refine ⟨pattern, finite, magnitude.trans ?_⟩
    have unit : BinaryFormat.double.leastExponent + (1074 : Nat) = 0 := rfl
    rw [unit, zpow_zero, mul_one]
  · obtain ⟨pattern, _, _, _, finite, magnitude⟩ := exists_twoPower 53 (by decide) (by decide)
    refine ⟨pattern, finite, magnitude.trans ?_⟩
    norm_num

def rounding : Rounding where
  round real := BinaryFormat.double.magnitude (nearestPattern real)
  monotone left right ordered := by
    have patterns := (nearestPattern_rounds left).mono (nearestPattern_rounds right)
      (max_le_max_right 0 ordered)
    exact BinaryFormat.magnitude_strictMono.monotone patterns
  exact natural small := by
    obtain ⟨pattern, finite, magnitude⟩ := exists_natural small
    have rounds := nearestPattern_rounds natural
    have itself := RoundsTo.magnitude finite.le
    rw [magnitude] at itself
    rw [max_eq_left natural.cast_nonneg] at rounds
    rw [rounds.unique itself, magnitude]

theorem isMeasure_and_magnitude_of_rounds {number : Binary64} {real : ℚ}
    (rounds : RoundsTo .double real number.bits.toNat) (nonneg : 0 ≤ real)
    (small : real ≤ 2 ^ 53) :
    number.IsMeasure ∧ number.magnitude = rounding.round real := by
  have nearest := nearestPattern_rounds real
  rw [max_eq_left nonneg] at nearest
  have bounded := le_of_rounds 53 rounds (by decide) (by decide) (by exact_mod_cast small)
  exact ⟨bounded.1, congrArg BinaryFormat.double.magnitude (rounds.unique nearest)⟩

theorem magnitude_nonneg (number : Binary64) : 0 ≤ number.magnitude :=
  BinaryFormat.magnitude_nonneg _

instance : RoundedArithmetic Binary64 where
  rounding := rounding
  value := magnitude
  IsMeasure := IsMeasure
  value_nonneg number _ := number.magnitude_nonneg
  ofNat_rounds natural small :=
    isMeasure_and_magnitude_of_rounds (ofNat_rounds natural) natural.cast_nonneg
      (by exact_mod_cast small)
  add_rounds left right leftMeasure rightMeasure small :=
    isMeasure_and_magnitude_of_rounds (add_rounds leftMeasure rightMeasure)
      (add_nonneg left.magnitude_nonneg right.magnitude_nonneg) small
  divide_rounds left right leftMeasure rightMeasure nonzero small :=
    isMeasure_and_magnitude_of_rounds (divide_rounds leftMeasure rightMeasure nonzero)
      (div_nonneg left.magnitude_nonneg right.magnitude_nonneg) small

/-- Different patterns stand for different numbers, since even those beyond infinity are read as
numbers here. -/
theorem magnitude_injective : Function.Injective magnitude := by
  intro left right same
  have patterns := BinaryFormat.magnitude_strictMono.injective same
  exact congrArg Binary64.mk (UInt64.toNat_inj.mp patterns)

theorem magnitude_one : magnitude one = (1 : Nat) := by
  have same : ofNat 1 = one := by decide +kernel
  have exactly : RoundedArithmetic.Between 1 1 (ofNat 1) := .ofNat (by decide)
  rw [← same]
  exact exactly.value_eq

theorem magnitude_zero : magnitude zero = (0 : Nat) :=
  BinaryFormat.magnitude_zero.trans Nat.cast_zero.symm

end Binary64

end RangeRecall
