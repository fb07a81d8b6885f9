import RangeRecall.Proofs.Numeric.DoubleArithmetic

/-! Bounds on doubles. Powers of two are doubles, so rounding carries no result across one of them,
and sums of small doubles stop growing long before they become infinite. -/

namespace RangeRecall

open BinaryFormat (RoundsTo InPlace)

namespace Binary64

theorem exists_twoPower (power : Int) (least : -1022 ≤ power) (greatest : power ≤ 1023) :
    ∃ pattern steps : Nat, InPlace .double pattern steps (2 ^ 52) ∧ power = steps - 1022 ∧
      pattern < BinaryFormat.double.infinityPattern ∧
      BinaryFormat.double.magnitude pattern = 2 ^ power := by
  obtain ⟨steps, same⟩ := Int.eq_ofNat_of_zero_le (show 0 ≤ power + 1022 by omega)
  have place := BinaryFormat.double.inPlace_twoPower steps
  refine ⟨_, steps, place, by omega, ?_, ?_⟩
  · rw [infinityPattern_double]
    change (steps + 1) * 2 ^ 52 < 2047 * 2 ^ 52
    omega
  · obtain rfl : power = 52 + (-1074 + steps) := by omega
    rw [place.magnitude_eq, Nat.cast_pow]
    exact BinaryFormat.pow_mul_zpow 52 (-1074 + steps)

section

variable {number : Binary64} {real : ℚ}

theorem le_of_rounds (power : Int) (rounds : RoundsTo .double real number.bits.toNat)
    (least : -1022 ≤ power) (greatest : power ≤ 1023) (bound : real ≤ 2 ^ power) :
    number.IsMeasure ∧ number.magnitude ≤ 2 ^ power := by
  obtain ⟨pattern, _, _, _, finite, same⟩ := exists_twoPower power least greatest
  have fits := rounds.mono (.magnitude finite.le) (same ▸ bound)
  exact ⟨Nat.lt_of_le_of_lt fits finite,
    same ▸ BinaryFormat.magnitude_strictMono.monotone fits⟩

theorem ge_of_rounds (power : Int) (rounds : RoundsTo .double real number.bits.toNat)
    (least : -1022 ≤ power) (greatest : power ≤ 1023) (bound : 2 ^ power ≤ real) :
    2 ^ power ≤ number.magnitude := by
  obtain ⟨pattern, _, _, _, finite, same⟩ := exists_twoPower power least greatest
  have fits := RoundsTo.mono (.magnitude finite.le) rounds (same ▸ bound)
  exact same ▸ BinaryFormat.magnitude_strictMono.monotone fits

end

/-! ## Integers -/

theorem ofNat_rounds (natural : Nat) : RoundsTo .double natural (ofNat natural).bits.toNat := by
  have rounds := BinaryFormat.nearest_rounds .double (by decide) natural one_pos
  rw [Nat.cast_one, div_one] at rounds
  have word : (ofNat natural).bits.toNat = BinaryFormat.double.nearest false natural 1 := by
    apply UInt64.toNat_ofNat_of_lt'
    refine Nat.lt_of_le_of_lt rounds.le_infinity ?_
    decide
  rwa [word]

/-! ## Bounded numbers -/

/-- The number is neither negative nor greater than a power of two. -/
structure AtMost (power : Nat) (number : Binary64) : Prop where
  measure : number.IsMeasure
  bound : number.magnitude ≤ 2 ^ power

namespace AtMost

variable {left right : Binary64} {power other : Nat}

theorem of_rounds {number : Binary64} {real : ℚ}
    (rounds : RoundsTo .double real number.bits.toNat) (small : power ≤ 1023)
    (bound : real ≤ 2 ^ power) : AtMost power number := by
  have finite := le_of_rounds power rounds (by omega) (by omega)
    (by rwa [zpow_natCast])
  rw [zpow_natCast] at finite
  exact ⟨finite.1, finite.2⟩

theorem mono (atMost : AtMost power left) (le : power ≤ other) : AtMost other left :=
  ⟨atMost.measure, atMost.bound.trans (pow_le_pow_right₀ one_le_two le)⟩

theorem ofNat {natural : Nat} (small : power ≤ 1023) (bound : natural ≤ 2 ^ power) :
    AtMost power (.ofNat natural) :=
  of_rounds (ofNat_rounds natural) small (by exact_mod_cast bound)

theorem multiply (leftAtMost : AtMost power left) (rightAtMost : AtMost other right)
    (small : power + other ≤ 1023) : AtMost (power + other) (left.multiply right) := by
  refine of_rounds (multiply_rounds leftAtMost.measure rightAtMost.measure) small ?_
  rw [pow_add]
  exact mul_le_mul leftAtMost.bound rightAtMost.bound (BinaryFormat.magnitude_nonneg _)
    (by positivity)

theorem divide (leftAtMost : AtMost power left) (rightMeasure : right.IsMeasure)
    (large : 1 ≤ right.magnitude * 2 ^ other) (small : power + other ≤ 1023) :
    AtMost (power + other) (left.divide right) := by
  have nonneg : 0 ≤ right.magnitude := BinaryFormat.magnitude_nonneg _
  have positive : 0 < right.magnitude := by
    rcases nonneg.lt_or_eq with positive | zero
    · exact positive
    · rw [← zero, zero_mul] at large
      linarith
  refine of_rounds (divide_rounds leftAtMost.measure rightMeasure positive.ne') small ?_
  rw [div_le_iff₀ positive, pow_add]
  have scale : (0 : ℚ) < 2 ^ power := by positivity
  nlinarith [leftAtMost.bound]

theorem add (leftAtMost : AtMost power left) (rightAtMost : AtMost power right)
    (small : power + 1 ≤ 1023) : AtMost (power + 1) (left.add right) := by
  refine of_rounds (add_rounds leftAtMost.measure rightAtMost.measure) small ?_
  rw [pow_succ]
  linarith [leftAtMost.bound, rightAtMost.bound]

theorem accumulate (leftAtMost : AtMost (power + 54) left) (rightAtMost : AtMost power right)
    (small : power + 54 ≤ 1023) : AtMost (power + 54) (left.add right) := by
  obtain ⟨pattern, steps, place, same, finite, magnitude⟩ :=
    exists_twoPower (power + 54) (by omega) (by omega)
  have rounds := add_rounds leftAtMost.measure rightAtMost.measure
  have unmoved : (left.add right).bits.toNat ≤ pattern := by
    by_contra beyond
    obtain ⟨below, next⟩ := Nat.exists_eq_add_one_of_ne_zero (Nat.ne_zero_of_lt
      (Nat.lt_of_not_le beyond))
    have half := rounds.midpoint_le next.symm
    have ordered : BinaryFormat.double.midpoint pattern ≤ BinaryFormat.double.midpoint below :=
      BinaryFormat.midpoint_strictMono.monotone (by omega)
    have unit : BinaryFormat.double.leastExponent + steps = power + 2 := by
      rw [show BinaryFormat.double.leastExponent = -1074 from rfl]
      omega
    rw [place.eq, BinaryFormat.midpoint_place place.bounded place.normal, unit,
      show (power : Int) + 2 = ((power + 2 : Nat) : Int) from rfl, zpow_natCast] at ordered
    have scale : (0 : ℚ) < 2 ^ power := by positivity
    have leftBound := leftAtMost.bound
    have rightBound := rightAtMost.bound
    push_cast at ordered
    rw [pow_add] at leftBound ordered
    nlinarith
  refine ⟨Nat.lt_of_le_of_lt unmoved finite, ?_⟩
  have bound := BinaryFormat.double.magnitude_strictMono.monotone unmoved
  rw [magnitude] at bound
  exact_mod_cast bound

end AtMost

end Binary64

end RangeRecall
