import RangeRecall.Grade.TopK
import RangeRecall.Proofs.Grade.Recall

/-! Comparisons of top-k runs. Two runs that got the same answers agree on everything that is
relevant, and what the comparison counts then depends on the sizes of the answers alone. -/

namespace RangeRecall

namespace TopKReport

def relevantCount (k : Nat) (baseline : List ExecutionRecord) : Nat :=
  (baseline.flatMap (relevantIds k)).length

variable {k : Nat} {baseline target : List ExecutionRecord}

theorem totalHits_of_same_answers
    (same : target.map ExecutionRecord.resultIds = baseline.map ExecutionRecord.resultIds) :
    totalHits k baseline target = relevantCount k baseline := by
  induction baseline generalizing target with
  | nil =>
      cases target with
      | nil => rfl
      | cons _ _ => cases same
  | cons first baseline induction =>
      cases target with
      | nil => cases same
      | cons second target =>
          have parts := List.cons_eq_cons.mp same
          have found : hits k first second = (relevantIds k first).length := by
            apply List.countP_eq_length.mpr
            intro id member
            rw [parts.1]
            exact List.contains_iff_mem.mpr (List.mem_of_mem_take member)
          rw [totalHits, found, induction parts.2, relevantCount, relevantCount,
            List.flatMap_cons, List.length_append]

theorem relevantCount_of_sizes {size : Nat} (small : size ≤ k)
    (sizes : ∀ record ∈ baseline, record.resultIds.length = size) :
    relevantCount k baseline = baseline.length * size := by
  induction baseline with
  | nil => exact (Nat.zero_mul size).symm
  | cons first baseline induction =>
      have whole : (relevantIds k first).length = size := by
        rw [relevantIds, List.length_take, sizes first List.mem_cons_self, Nat.min_eq_right small]
      have others := induction fun record member => sizes record (List.mem_cons_of_mem _ member)
      rw [relevantCount] at others
      rw [relevantCount, List.flatMap_cons, List.length_append, whole, others, List.length_cons,
        Nat.succ_mul, Nat.add_comm]

theorem countP_short_of_sizes {size : Nat}
    (sizes : ∀ record ∈ target, record.resultIds.length = size) :
    target.countP (fun record => record.resultIds.length < k) =
      if k ≤ size then 0 else target.length := by
  split
  · rename_i enough
    apply List.countP_eq_zero.mpr
    intro record member
    simpa [sizes record member] using enough
  · rename_i short
    apply List.countP_eq_length.mpr
    intro record member
    simpa [sizes record member] using short

theorem compare_eq_ok {baseline target : ExecutionRun} (positive : 0 < k)
    (lengths : baseline.records.length = target.records.length)
    (ordered : baseline.records.map ExecutionRecord.index =
      List.range' 0 baseline.records.length)
    (targetOrdered : target.records.map ExecutionRecord.index =
      List.range' 0 target.records.length) :
    compare baseline target k = .ok {
      k := k
      queryCount := target.records.length
      aggregateRecall := Recall.share (totalHits k baseline.records target.records)
        (relevantCount k baseline.records)
      shortResults := target.records.countP fun record => record.resultIds.length < k
      queriesPerSecond := throughput target.records.length target.wallClock
      baselineLatency := LatencyStats.ofDurations baseline.latencies
      targetLatency := LatencyStats.ofDurations target.latencies } := by
  rw [compare, if_neg (Nat.ne_of_gt positive), if_neg (fun differ => differ lengths),
    checkRecordOrder_eq_ok ordered, checkRecordOrder_eq_ok targetOrdered]
  rfl

end TopKReport

end RangeRecall
