import RangeRecall.Proofs.Grade.Finite
import RangeRecall.Proofs.Grade.LatencyOrder
import RangeRecall.Proofs.Numeric.MonotoneArithmetic

/-! Percentiles in order. Every step from a percentage to a rank keeps the order of percentages,
and percentages that are not positive have rank zero, so of ascending values a greater percentage
finds a later one. -/

namespace RangeRecall

open Binary64 (AtMost IsPositive)

namespace Binary64

theorem bits_ofNat_le_infinity (natural : Nat) :
    (ofNat natural).bits.toNat ≤ BinaryFormat.double.infinityPattern :=
  (ofNat_rounds natural).le_infinity

theorem isPositive_ofNat {natural : Nat} (some : 0 < natural) : (ofNat natural).IsPositive := by
  refine ⟨Nat.pos_of_ne_zero fun zero => ?_, bits_ofNat_le_infinity natural⟩
  have one := one_le_ofNat some
  rw [magnitude, zero, BinaryFormat.magnitude_zero] at one
  exact absurd one (by norm_num)

theorem le_refl_of_number {number : Binary64} (isNumber : number.isNaN = false) :
    number ≤ number :=
  le_iff.mpr ⟨isNumber, isNumber, le_rfl⟩

variable {left right : Binary64}

theorem le_of_precedes (leftMeasure : left.IsMeasure) (rightMeasure : right.IsMeasure)
    (before : left.precedes right = true) : left ≤ right := by
  obtain ⟨leftNumber, leftRank⟩ := rank_of_unsigned leftMeasure.le
  obtain ⟨rightNumber, rightRank⟩ := rank_of_unsigned rightMeasure.le
  refine le_iff.mpr ⟨leftNumber, rightNumber, ?_⟩
  have limit : BinaryFormat.double.infinityPattern < signedLimit := by decide
  have keys := precedes_iff.mp before
  rw [IsMeasure] at leftMeasure rightMeasure
  rcases left.orderKey_cases with leftKey | leftKey <;>
    rcases right.orderKey_cases with rightKey | rightKey <;> omega

/-- A count can be so large that it is infinite as a double. Then all positive numbers have the same
multiple. -/
theorem roundToNat_multiple_mono (ordered : left.bits.toNat ≤ right.bits.toNat)
    (bounded : right.bits.toNat ≤ BinaryFormat.double.infinityPattern) (count : Nat) :
    (left.multiply (ofNat count)).roundToNat ≤ (right.multiply (ofNat count)).roundToNat := by
  rcases Nat.eq_zero_or_pos count with rfl | some
  · have none : ofNat 0 = zero := by decide +kernel
    rw [none, roundToNat_of_not_positive (multiply_zero left)]
    exact Nat.zero_le _
  · have positive := isPositive_ofNat some
    rcases positive.2.lt_or_eq with measure | infinite
    · obtain ⟨products, finite⟩ := multiply_mono positive measure ordered bounded
      exact roundToNat_mono products finite
    · by_cases leftPositive : left.IsPositive
      · have rightPositive : right.IsPositive := ⟨leftPositive.1.trans_le ordered, bounded⟩
        rw [roundToNat_of_infinite (multiply_infinite leftPositive infinite),
          roundToNat_of_infinite (multiply_infinite rightPositive infinite)]
      · rw [roundToNat_of_not_positive (multiply_not_positive leftPositive positive.2)]
        exact Nat.zero_le _

end Binary64

namespace Statistics

/-! ## Ranks -/

theorem hundred_positive : (Binary64.ofNat 100).IsPositive ∧ (Binary64.ofNat 100).IsMeasure := by
  have atMost : AtMost 7 (Binary64.ofNat 100) := .ofNat (by decide) (by decide)
  exact ⟨Binary64.isPositive_ofNat (by decide), atMost.measure⟩

theorem rank_of_not_positive {percentage : Binary64} (notPositive : ¬percentage.IsPositive)
    (count : Nat) : rank percentage count = 0 := by
  obtain ⟨positive, measure⟩ := hundred_positive
  have share := Binary64.divide_not_positive notPositive positive measure
  have product := Binary64.multiply_not_positive share
    (Binary64.bits_ofNat_le_infinity (count - 1))
  exact Binary64.roundToNat_of_not_positive product

theorem rank_mono {low high : Binary64} (ordered : low ≤ high) (count : Nat) :
    rank low count ≤ rank high count := by
  obtain ⟨-, highNumber, places⟩ := Binary64.le_iff.mp ordered
  by_cases lowPositive : low.IsPositive
  · have highPositive : high.IsPositive :=
      Binary64.isPositive_iff.mpr
        ⟨highNumber, (Binary64.isPositive_iff.mp lowPositive).2.trans_le places⟩
    have patterns : low.bits.toNat ≤ high.bits.toNat := by
      rw [(Binary64.rank_of_unsigned lowPositive.2).2,
        (Binary64.rank_of_unsigned highPositive.2).2] at places
      exact_mod_cast places
    obtain ⟨positive, measure⟩ := hundred_positive
    obtain ⟨shares, bounded⟩ := Binary64.divide_mono positive measure patterns highPositive.2
    exact Binary64.roundToNat_multiple_mono shares bounded (count - 1)
  · rw [rank_of_not_positive lowPositive]
    exact Nat.zero_le _

/-! ## Percentiles -/

section

variable {values : List Binary64}

theorem le_of_positions (ascends : values.Pairwise (· ≤ ·))
    (numbers : ∀ value ∈ values, value.isNaN = false) {before after : Nat} {low high : Binary64}
    (ordered : before ≤ after) (lowFound : values[before]? = some low)
    (highFound : values[after]? = some high) : low ≤ high := by
  obtain ⟨lowInside, rfl⟩ := List.getElem?_eq_some_iff.mp lowFound
  obtain ⟨highInside, rfl⟩ := List.getElem?_eq_some_iff.mp highFound
  rcases ordered.lt_or_eq with less | rfl
  · exact List.pairwise_iff_getElem.mp ascends before after lowInside highInside less
  · exact Binary64.le_refl_of_number (numbers _ (List.getElem_mem lowInside))

theorem place_mono {low high : Binary64} (ordered : low ≤ high) (count : Nat) :
    place low count ≤ place high count :=
  min_le_min_right _ (rank_mono ordered count)

theorem percentile_nil (percentage : Binary64) :
    percentile [] percentage = RealArithmetic.ofNat 0 := rfl

theorem percentile_mono (ascends : values.Pairwise (· ≤ ·))
    (numbers : ∀ value ∈ values, value.isNaN = false) {low high : Binary64}
    (ordered : low ≤ high) : percentile values low ≤ percentile values high := by
  by_cases some : values = []
  · rw [some, percentile_nil, percentile_nil]
    exact Binary64.le_refl_of_number (by decide +kernel)
  · exact le_of_positions ascends numbers (place_mono ordered values.length)
      (getElem?_place some low) (getElem?_place some high)

end

end Statistics

namespace LatencyStats

theorem inOrder_measure {durations : List Duration} {value : Binary64}
    (member : value ∈ inOrder durations) : value.IsMeasure := by
  obtain ⟨duration, -, rfl⟩ := mem_inOrder.mp member
  exact duration.toMilliseconds_atMost.measure

theorem inOrder_pairwise_le (durations : List Duration) :
    (inOrder durations).Pairwise (· ≤ ·) := by
  apply (inOrder_ascends durations).imp_of_mem
  intro left right leftMember rightMember before
  exact Binary64.le_of_precedes (inOrder_measure leftMember) (inOrder_measure rightMember) before

theorem inOrder_isNumber {durations : List Duration} :
    ∀ value ∈ inOrder durations, value.isNaN = false := fun _ member =>
  (Binary64.rank_of_unsigned (inOrder_measure member).le).1

theorem percentiles_ofSorted {values : List Binary64} (some : values ≠ []) :
    (ofSorted values).p50 = Statistics.percentile values (Binary64.ofNat 50) ∧
      (ofSorted values).p95 = Statistics.percentile values (Binary64.ofNat 95) ∧
      (ofSorted values).p99 = Statistics.percentile values (Binary64.ofNat 99) := by
  cases values with
  | nil => exact absurd rfl some
  | cons first rest => simp only [ofSorted, and_self]

theorem figures_ascend {durations : List Duration} (some : durations ≠ []) :
    (ofDurations durations).least ≤ (ofDurations durations).p50 ∧
      (ofDurations durations).p50 ≤ (ofDurations durations).p95 ∧
      (ofDurations durations).p95 ≤ (ofDurations durations).p99 ∧
      (ofDurations durations).p99 ≤ (ofDurations durations).greatest := by
  have found := inOrder_ne_nil some
  have ascends := inOrder_pairwise_le durations
  have length := List.length_pos_iff.mpr found
  have last (percentage : Binary64) :
      Statistics.place percentage (inOrder durations).length ≤ (inOrder durations).length - 1 :=
    Nat.le_sub_one_of_lt (Statistics.place_lt percentage length)
  obtain ⟨p50, p95, p99⟩ := percentiles_ofSorted found
  rw [ofDurations_eq, p50, p95, p99]
  refine ⟨?_, ?_, ?_, ?_⟩
  · exact Statistics.le_of_positions ascends inOrder_isNumber (Nat.zero_le _)
      (least_ofSorted found) (Statistics.getElem?_place found _)
  · exact Statistics.percentile_mono ascends inOrder_isNumber (by decide +kernel)
  · exact Statistics.percentile_mono ascends inOrder_isNumber (by decide +kernel)
  · exact Statistics.le_of_positions ascends inOrder_isNumber (last _)
      (Statistics.getElem?_place found _) (greatest_ofSorted found)

end LatencyStats

namespace Statistics

/-- Percentiles are ordered. The figures of latencies ascend; of ascending numbers a greater
percentage, be it negative, above a hundred or infinite, never finds a smaller one; and whatever the
percentage is, its rank is a word and its position among the values exists if there are any. -/
theorem percentiles_ascend :
    (∀ durations : List Duration, durations ≠ [] →
      (LatencyStats.ofDurations durations).least ≤ (LatencyStats.ofDurations durations).p50 ∧
      (LatencyStats.ofDurations durations).p50 ≤ (LatencyStats.ofDurations durations).p95 ∧
      (LatencyStats.ofDurations durations).p95 ≤ (LatencyStats.ofDurations durations).p99 ∧
      (LatencyStats.ofDurations durations).p99 ≤ (LatencyStats.ofDurations durations).greatest) ∧
    (∀ (values : List Binary64) (low high : Binary64), values.Pairwise (· ≤ ·) →
      (∀ value ∈ values, value.isNaN = false) → low ≤ high →
        percentile values low ≤ percentile values high) ∧
    ∀ (values : List Binary64) (percentage : Binary64),
      rank percentage values.length < wordLimit ∧
      (values ≠ [] → ∃ inside : place percentage values.length < values.length,
        percentile values percentage = values[place percentage values.length]) ∧
      (values = [] → percentile values percentage = .zero) := by
  refine ⟨fun _ => LatencyStats.figures_ascend, ?_, ?_⟩
  · intro values low high ascends numbers ordered
    exact percentile_mono ascends numbers ordered
  · intro values percentage
    refine ⟨Binary64.roundToNat_lt _, ?_, ?_⟩
    · intro some
      obtain ⟨inside, found⟩ := List.getElem?_eq_some_iff.mp (getElem?_place some percentage)
      exact ⟨inside, found.symm⟩
    · rintro rfl
      rw [percentile_nil]
      decide +kernel

def aroundZero : List Binary64 :=
  [⟨0xbff0000000000000⟩, .zero, ⟨0x8000000000000000⟩, .one]

theorem aroundZero_ascends :
    aroundZero.Pairwise (· ≤ ·) ∧ percentile aroundZero ⟨0xfff0000000000000⟩ ≠ .one ∧
    percentile aroundZero (Binary64.ofNat 150) = .one ∧
    percentile aroundZero ⟨0xfff0000000000000⟩ ≤ percentile aroundZero (Binary64.ofNat 150) ∧
    (∃ inside : place (Binary64.mk 0x7ff8000000000000) aroundZero.length < aroundZero.length,
      percentile aroundZero (Binary64.mk 0x7ff8000000000000) =
        aroundZero[place (Binary64.mk 0x7ff8000000000000) aroundZero.length]) ∧
    (LatencyStats.ofDurations ([3, 1, 2].map LatencyStats.tenths)).least ≤
      (LatencyStats.ofDurations ([3, 1, 2].map LatencyStats.tenths)).p50 := by
  obtain ⟨figures, ascends, inside⟩ := percentiles_ascend
  have sorted : aroundZero.Pairwise (· ≤ ·) := by decide +kernel
  have numbers : ∀ value ∈ aroundZero, value.isNaN = false := by decide +kernel
  refine ⟨sorted, by decide +kernel, by decide +kernel, ?_, ?_, ?_⟩
  · exact ascends aroundZero _ _ sorted numbers (by decide +kernel)
  · exact (inside aroundZero _).2.1 (by decide)
  · exact (figures ([3, 1, 2].map LatencyStats.tenths) (by decide)).1

end Statistics

end RangeRecall
