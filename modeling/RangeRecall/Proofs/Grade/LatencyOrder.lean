import RangeRecall.Proofs.Grade.SetRecall

/-! Latencies in order. The statistics are read off the values in the order of all patterns, which
tells any two patterns apart. A collection of latencies has only one arrangement in that order, so
the statistics do not depend on the order in which the latencies were measured. -/

namespace RangeRecall

namespace Binary64

variable {left right : Binary64}

theorem precedes_iff : left.precedes right = true ↔ left.orderKey ≤ right.orderKey :=
  decide_eq_true_iff

theorem orderKey_cases (number : Binary64) :
    (number.bits.toNat < signedLimit ∧ number.orderKey = number.bits.toNat + signedLimit) ∨
      (signedLimit ≤ number.bits.toNat ∧ number.orderKey + number.bits.toNat + 1 = wordLimit) := by
  have bound : number.bits.toNat < wordLimit := number.bits.toNat_lt
  rw [orderKey]
  by_cases small : number.bits.toNat < signedLimit
  · exact .inl ⟨small, if_pos small⟩
  · refine .inr ⟨Nat.le_of_not_lt small, ?_⟩
    rw [if_neg small]
    omega

theorem orderKey_injective : Function.Injective orderKey := by
  intro left right same
  have patterns : left.bits.toNat = right.bits.toNat := by
    have limits : wordLimit = signedLimit + signedLimit := by decide
    rcases left.orderKey_cases with leftKey | leftKey <;>
      rcases right.orderKey_cases with rightKey | rightKey <;> omega
  exact congrArg Binary64.mk (UInt64.toNat_inj.mp patterns)

theorem precedes_antisymm (before : left.precedes right = true)
    (after : right.precedes left = true) : left = right :=
  orderKey_injective (Nat.le_antisymm (precedes_iff.mp before) (precedes_iff.mp after))

theorem precedes_trans (first second third : Binary64) (before : first.precedes second = true)
    (after : second.precedes third = true) : first.precedes third = true :=
  precedes_iff.mpr ((precedes_iff.mp before).trans (precedes_iff.mp after))

theorem precedes_total (left right : Binary64) :
    (left.precedes right || right.precedes left) = true := by
  rw [Bool.or_eq_true, precedes_iff, precedes_iff]
  exact Nat.le_total _ _

end Binary64

/-! ## Places among ascending values -/

namespace Statistics

variable {α : Type} [RealArithmetic α] {values : List α}

def place (percentage : α) (count : Nat) : Nat :=
  min (rank percentage count) (count - 1)

theorem place_lt (percentage : α) {count : Nat} (some : 0 < count) :
    place percentage count < count :=
  Nat.lt_of_le_of_lt (Nat.min_le_right _ _) (Nat.sub_one_lt_of_lt some)

theorem getElem?_place (some : values ≠ []) (percentage : α) :
    values[place percentage values.length]? = Option.some (percentile values percentage) := by
  have inside := place_lt percentage (List.length_pos_iff.mpr some)
  rw [percentile, ← place, List.getElem?_eq_getElem inside]
  rfl

theorem percentile_mem (some : values ≠ []) (percentage : α) :
    percentile values percentage ∈ values :=
  List.mem_of_getElem? (getElem?_place some percentage)

end Statistics

namespace LatencyStats

def inOrder (durations : List Duration) : List Binary64 :=
  (durations.map Duration.toMilliseconds).mergeSort Binary64.precedes

theorem ofDurations_eq (durations : List Duration) :
    ofDurations durations = ofSorted (inOrder durations) := rfl

theorem inOrder_perm (durations : List Duration) :
    (inOrder durations).Perm (durations.map Duration.toMilliseconds) :=
  List.mergeSort_perm _ _

theorem inOrder_ascends (durations : List Duration) :
    (inOrder durations).Pairwise fun left right => left.precedes right = true :=
  List.pairwise_mergeSort Binary64.precedes_trans Binary64.precedes_total _

theorem mem_inOrder {durations : List Duration} {value : Binary64} :
    value ∈ inOrder durations ↔ ∃ duration ∈ durations, value = duration.toMilliseconds := by
  rw [(inOrder_perm durations).mem_iff, List.mem_map]
  simp only [eq_comm]

theorem inOrder_ne_nil {durations : List Duration} (some : durations ≠ []) :
    inOrder durations ≠ [] := by
  intro empty
  have perm := inOrder_perm durations
  rw [empty, List.nil_perm, List.map_eq_nil_iff] at perm
  exact some perm

theorem eq_inOrder {durations : List Duration} {values : List Binary64}
    (perm : values.Perm (durations.map Duration.toMilliseconds))
    (ascends : values.Pairwise fun left right => left.precedes right = true) :
    values = inOrder durations := by
  apply List.Perm.eq_of_pairwise _ ascends (inOrder_ascends durations)
  · exact perm.trans (inOrder_perm durations).symm
  · intro left right _ _ before after
    exact Binary64.precedes_antisymm before after

theorem inOrder_congr {durations others : List Duration} (perm : durations.Perm others) :
    inOrder durations = inOrder others :=
  eq_inOrder ((inOrder_perm durations).trans (perm.map _)) (inOrder_ascends durations)

/-! ## Figures -/

def figures (stats : LatencyStats) : List Binary64 :=
  [stats.least, stats.p50, stats.p95, stats.p99, stats.greatest]

theorem least_ofSorted {values : List Binary64} (some : values ≠ []) :
    values[0]? = Option.some (ofSorted values).least := by
  cases values with
  | nil => exact absurd rfl some
  | cons first rest => rfl

theorem greatest_ofSorted {values : List Binary64} (some : values ≠ []) :
    values[values.length - 1]? = Option.some (ofSorted values).greatest := by
  cases values with
  | nil => exact absurd rfl some
  | cons first rest =>
      rw [← List.getLast?_eq_getElem?, List.getLast?_cons]
      rfl

theorem figures_subset {values : List Binary64} (some : values ≠ []) {figure : Binary64}
    (member : figure ∈ (ofSorted values).figures) : figure ∈ values := by
  have percentiles (percentage : Binary64) := Statistics.percentile_mem some percentage
  have ends := And.intro (List.mem_of_getElem? (least_ofSorted some))
    (List.mem_of_getElem? (greatest_ofSorted some))
  cases values with
  | nil => exact absurd rfl some
  | cons first rest =>
      simp only [figures, List.mem_cons, List.not_mem_nil, or_false] at member
      rcases member with rfl | rfl | rfl | rfl | rfl
      · exact ends.1
      · exact percentiles _
      · exact percentiles _
      · exact percentiles _
      · exact ends.2

/-- Statistics are statistics of a collection: latencies in another order have bit for bit the same
ones, also the mean, although rounded addition depends on the order. The count is that of the
latencies, and each figure other than the mean is one of them. -/
theorem statistics_of_collection (durations : List Duration) :
    (∀ others : List Duration, durations.Perm others →
      ofDurations others = ofDurations durations) ∧
    (ofDurations durations).count = durations.length ∧
    (durations ≠ [] → ∀ figure ∈ (ofDurations durations).figures,
      ∃ duration ∈ durations, figure = duration.toMilliseconds) := by
  refine ⟨?_, count_ofDurations durations, ?_⟩
  · intro others perm
    rw [ofDurations_eq, ofDurations_eq, inOrder_congr perm]
  · intro some figure member
    rw [ofDurations_eq] at member
    exact mem_inOrder.mp (figures_subset (inOrder_ne_nil some) member)

def tenths (count : Fin 10000) : Duration where
  seconds := 0
  nanos := count * 100000
  seconds_lt := Duration.zero.seconds_lt
  nanos_lt := Nat.mul_lt_mul_of_pos_right count.isLt (Nat.succ_pos _)

theorem tenths_in_any_order :
    (Statistics.total (([3, 2, 1].map tenths).map Duration.toMilliseconds) : Binary64) ≠
      Statistics.total (([1, 2, 3].map tenths).map Duration.toMilliseconds) ∧
    ofDurations ([3, 2, 1].map tenths) = ofDurations ([1, 2, 3].map tenths) ∧
    ∀ figure ∈ (ofDurations ([1, 2, 3].map tenths)).figures,
      ∃ duration ∈ [1, 2, 3].map tenths, figure = duration.toMilliseconds := by
  obtain ⟨order, -, figures⟩ := statistics_of_collection ([1, 2, 3].map tenths)
  exact ⟨by decide +kernel, order _ (by decide), figures (by decide)⟩

end LatencyStats

end RangeRecall
