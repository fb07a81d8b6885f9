import RangeRecall.Proofs.Failure
import RangeRecall.Proofs.Grade.SetRecall
import RangeRecall.Proofs.Numeric.DoubleBounds

/-! The statistics of a graded run stay far below infinity: recalls are quotients of counts that
offsets limit, and a latency is a limited number of seconds. -/

namespace RangeRecall

open Binary64 (AtMost)

/-! ## Counts and shares -/

theorem Binary64.one_le_ofNat {natural : Nat} (positive : 0 < natural) :
    1 ≤ (Binary64.ofNat natural).magnitude := by
  have one := Binary64.ge_of_rounds 0 (Binary64.ofNat_rounds natural) (by decide) (by decide)
    (by rw [zpow_zero]; exact_mod_cast positive)
  rwa [zpow_zero] at one

theorem Recall.share_atMost {found total : Nat} (counted : found ≤ total)
    (small : total < fieldLimit) : AtMost 32 (Recall.share found total : Binary64) := by
  have bound : total ≤ 2 ^ 32 := small.le
  rw [Recall.share]
  split
  · exact .ofNat (by decide) (by decide)
  · rename_i some
    have positive : 0 < total := Nat.pos_of_ne_zero some
    have measure : AtMost 32 (Binary64.ofNat total) := .ofNat (by decide) bound
    have large : 1 ≤ (Binary64.ofNat total).magnitude * 2 ^ 0 := by
      rw [pow_zero, mul_one]
      exact Binary64.one_le_ofNat positive
    exact AtMost.divide (.ofNat (by decide) (counted.trans bound)) measure.measure large (by decide)

theorem Recall.share_self {total : Nat} (fits : total < wordLimit) :
    (Recall.share total total : Binary64) = Binary64.one := by
  have same : Binary64.ofNat 1 = Binary64.one := by decide +kernel
  rw [Recall.share]
  split
  · exact same
  · rename_i some
    have measure : AtMost 64 (Binary64.ofNat total) := .ofNat (by decide) fits.le
    have positive : (0 : ℚ) < (Binary64.ofNat total).magnitude :=
      lt_of_lt_of_le one_pos (Binary64.one_le_ofNat (Nat.pos_of_ne_zero some))
    have rounds := Binary64.divide_rounds measure.measure measure.measure positive.ne'
    rw [div_self positive.ne'] at rounds
    have exactly := Binary64.ofNat_rounds 1
    rw [Nat.cast_one, same] at exactly
    have pattern := rounds.unique exactly
    exact congrArg Binary64.mk (UInt64.toNat_inj.mp pattern)

namespace Statistics

variable {power : Nat} {values : List Binary64}

theorem foldl_add_atMost (small : power + 54 ≤ 1023) {start : Binary64}
    (begun : AtMost (power + 54) start) (each : ∀ value ∈ values, AtMost power value) :
    AtMost (power + 54) (values.foldl RealArithmetic.add start) := by
  induction values generalizing start with
  | nil => exact begun
  | cons first rest ih =>
      rw [List.foldl_cons]
      exact ih (begun.accumulate (each first List.mem_cons_self) small) fun value mem =>
        each value (List.mem_cons_of_mem _ mem)

theorem total_atMost (small : power + 54 ≤ 1023) (each : ∀ value ∈ values, AtMost power value) :
    AtMost (power + 54) (total values) := by
  cases values with
  | nil => exact .ofNat small (Nat.zero_le _)
  | cons first rest =>
      exact foldl_add_atMost small ((each first List.mem_cons_self).mono (by omega))
        fun value mem => each value (List.mem_cons_of_mem _ mem)

theorem mean_atMost (small : power + 54 ≤ 1023) (some : values ≠ [])
    (few : values.length < wordLimit) (each : ∀ value ∈ values, AtMost power value) :
    AtMost (power + 54) (mean values) := by
  have positive : 0 < values.length := List.length_pos_of_ne_nil some
  have measure : AtMost 64 (Binary64.ofNat values.length) := .ofNat (by decide) few.le
  have large : 1 ≤ (Binary64.ofNat values.length).magnitude * 2 ^ 0 := by
    rw [pow_zero, mul_one]
    exact Binary64.one_le_ofNat positive
  exact @AtMost.divide _ _ (power + 54) 0 (total_atMost small each) measure.measure large small

theorem percentile_atMost (small : power ≤ 1023) (each : ∀ value ∈ values, AtMost power value)
    (percentage : Binary64) : AtMost power (percentile values percentage) := by
  rw [percentile]
  rcases found : values[min (rank percentage values.length) (values.length - 1)]? with _ | value
  · exact .ofNat small (Nat.zero_le _)
  · exact each value (List.mem_of_getElem? found)

end Statistics

/-! ## Times -/

namespace Duration

variable (duration : Duration)

theorem nanos_fraction_atMost : AtMost 30
    ((Binary64.ofNat duration.nanos).divide (Binary64.ofNat nanosPerSecond)) := by
  have measure : AtMost 30 (Binary64.ofNat nanosPerSecond) := .ofNat (by decide) (by decide)
  have large : 1 ≤ (Binary64.ofNat nanosPerSecond).magnitude * 2 ^ 0 := by
    rw [pow_zero, mul_one]
    exact Binary64.one_le_ofNat (by decide)
  exact AtMost.divide (.ofNat (by decide) (duration.nanos_lt.le.trans (by decide)))
    measure.measure large (by decide)

theorem toSeconds_atMost : AtMost 65 (duration.toSeconds : Binary64) :=
  AtMost.add (.ofNat (by decide) duration.seconds_lt.le)
    (duration.nanos_fraction_atMost.mono (by decide)) (by decide)

theorem toMilliseconds_atMost : AtMost 75 (duration.toMilliseconds : Binary64) :=
  duration.toSeconds_atMost.multiply (.ofNat (by decide) (show 1000 ≤ 2 ^ 10 by decide)) (by decide)

theorem le_toSeconds (some : duration.toNanos ≠ 0) :
    2 ^ (-30 : Int) ≤ (duration.toSeconds : Binary64).magnitude := by
  have seconds : AtMost 64 (Binary64.ofNat duration.seconds) :=
    .ofNat (by decide) duration.seconds_lt.le
  have fraction := duration.nanos_fraction_atMost
  have rounds := Binary64.add_rounds seconds.measure fraction.measure
  have nonneg : 0 ≤ (Binary64.ofNat duration.seconds).magnitude := BinaryFormat.magnitude_nonneg _
  have fractionNonneg : 0 ≤ ((Binary64.ofNat duration.nanos).divide
    (Binary64.ofNat nanosPerSecond)).magnitude := BinaryFormat.magnitude_nonneg _
  refine Binary64.ge_of_rounds (-30) rounds (by decide) (by decide) ?_
  rcases Nat.eq_zero_or_pos duration.seconds with zero | positive
  · -- Without whole seconds there is a nanosecond at least.
    have nanos : 0 < duration.nanos := by
      rw [toNanos, zero, Nat.zero_mul, Nat.zero_add] at some
      exact Nat.pos_of_ne_zero some
    have perSecond : AtMost 30 (Binary64.ofNat nanosPerSecond) := .ofNat (by decide) (by decide)
    have one := Binary64.one_le_ofNat nanos
    have onePerSecond := Binary64.one_le_ofNat (show 0 < nanosPerSecond by decide)
    have measure : AtMost 30 (Binary64.ofNat duration.nanos) :=
      .ofNat (by decide) (duration.nanos_lt.le.trans (by decide))
    have quotient := Binary64.divide_rounds measure.measure perSecond.measure (by linarith)
    have bound := Binary64.ge_of_rounds (-30) quotient (by decide) (by decide) (by
      rw [zpow_neg, le_div_iff₀ (by linarith), inv_mul_le_iff₀ (by positivity)]
      have most : (Binary64.ofNat nanosPerSecond).magnitude ≤ 2 ^ (30 : Int) := perSecond.bound
      exact most.trans (le_mul_of_one_le_right (by positivity) one))
    linarith
  · have one := Binary64.one_le_ofNat positive
    have small : (2 : ℚ) ^ (-30 : Int) ≤ 1 := zpow_le_one_of_nonpos₀ one_le_two (by decide)
    linarith

end Duration

theorem throughput_atMost {queries : Nat} (few : queries < wordLimit) (wallClock : Duration) :
    AtMost 94 (throughput queries wallClock) := by
  rw [throughput]
  split
  · exact @AtMost.ofNat 94 0 (by decide) (by decide)
  · rename_i some
    have large : 1 ≤ (wallClock.toSeconds : Binary64).magnitude * 2 ^ 30 := by
      have least := wallClock.le_toSeconds (fun none => some (.inr none))
      rwa [zpow_neg, inv_le_iff_one_le_mul₀ (by positivity)] at least
    exact AtMost.divide (.ofNat (by decide) few.le) wallClock.toSeconds_atMost.measure large
      (by decide)

/-! ## Reports -/

structure LatencyStats.IsBounded (stats : LatencyStats) : Prop where
  count : stats.count < wordLimit
  mean : AtMost 200 stats.mean
  p50 : AtMost 200 stats.p50
  p95 : AtMost 200 stats.p95
  p99 : AtMost 200 stats.p99
  least : AtMost 200 stats.least
  greatest : AtMost 200 stats.greatest

theorem LatencyStats.isBounded_ofDurations {durations : List Duration}
    (few : durations.length < wordLimit) : (ofDurations durations).IsBounded := by
  have each : ∀ value ∈ (durations.map (Duration.toMilliseconds (α := Binary64))).mergeSort
      Binary64.precedes, AtMost 75 value := by
    intro value mem
    obtain ⟨duration, -, rfl⟩ := List.mem_map.mp (List.mem_mergeSort.mp mem)
    exact duration.toMilliseconds_atMost
  have length : ((durations.map (Duration.toMilliseconds (α := Binary64))).mergeSort
      Binary64.precedes).length < wordLimit := by
    rwa [List.length_mergeSort, List.length_map]
  rw [ofDurations]
  generalize (durations.map Duration.toMilliseconds).mergeSort Binary64.precedes = sorted
    at each length
  have large {value : Binary64} (small : AtMost 75 value) : AtMost 200 value :=
    small.mono (by decide)
  cases sorted with
  | nil =>
      have zero : AtMost 200 Binary64.zero := @AtMost.ofNat 200 0 (by decide) (by decide)
      exact ⟨by decide, zero, zero, zero, zero, zero, zero⟩
  | cons first rest =>
      have percentile (percentage : Binary64) :
          AtMost 75 (Statistics.percentile (first :: rest) percentage) :=
        Statistics.percentile_atMost (by decide) each percentage
      have mean := Statistics.mean_atMost (by decide) (List.cons_ne_nil _ _) length each
      refine ⟨length, mean.mono (by decide), large (percentile _), large (percentile _),
        large (percentile _), large (each first List.mem_cons_self), large ?_⟩
      rw [ofSorted]
      rcases last : rest.getLast? with _ | value
      · exact each first List.mem_cons_self
      · exact each value (List.mem_cons_of_mem _ (List.mem_of_getLast? last))

structure RecallReport.IsBounded (report : RecallReport) : Prop where
  queryCount : report.queryCount < wordLimit
  aggregateRecall : AtMost 200 report.aggregateRecall
  queriesPerSecond : AtMost 200 report.queriesPerSecond
  latency : report.latency.IsBounded
  perQueryRecall : ∀ recalls, report.perQueryRecall = some recalls →
    ∀ share ∈ recalls, AtMost 200 share

namespace RecallEvaluator

variable {evaluator : RecallEvaluator}

theorem countFound_le {returned : List UInt64} {neighbors : List UInt32} {found : Nat}
    (counted : evaluator.countFound returned neighbors = .ok found) :
    found ≤ neighbors.length := by
  induction neighbors generalizing found with
  | nil =>
      cases counted
      exact le_rfl
  | cons neighbor rest ih =>
      obtain ⟨id?, -, later⟩ := Failure.bind_eq_ok_iff.mp counted
      obtain ⟨others, countedOthers, last⟩ := Failure.bind_eq_ok_iff.mp later
      have bound := ih countedOthers
      rw [List.length_cons]
      split at last
      · cases last
        omega
      · cases last
        omega

theorem neighbors_lt {query : Nat} {neighbors : List UInt32} {truth : GroundTruth}
    (row : truth.neighbors query = .ok neighbors) : neighbors.length < fieldLimit := by
  obtain ⟨range, -, slice⟩ := Failure.bind_eq_ok_iff.mp row
  have total : truth.neighborIds.length < fieldLimit := by
    obtain ⟨last, -, same⟩ := Option.map_eq_some_iff.mp truth.rowOffsets.2.2
    rw [← same]
    exact last.toNat_lt
  rw [GroundTruth.between] at slice
  split at slice
  · cases slice
    rw [List.length_take, List.length_drop]
    omega
  · cases slice

theorem queryRecall_atMost {query : Nat} {returned : List UInt64} {share : Binary64}
    (graded : evaluator.queryRecall query returned = .ok share) : AtMost 32 share := by
  obtain ⟨⟨found, total⟩, tallied, same⟩ := Failure.bind_eq_ok_iff.mp graded
  obtain ⟨neighbors, row, later⟩ := Failure.bind_eq_ok_iff.mp tallied
  obtain ⟨counted, count, last⟩ := Failure.bind_eq_ok_iff.mp later
  cases last
  cases same
  have distinct : neighbors.eraseDups.length ≤ neighbors.length := by
    rw [length_eraseDups]
    exact List.toFinset_card_le neighbors
  exact Recall.share_atMost (countFound_le count) (Nat.lt_of_le_of_lt distinct (neighbors_lt row))

theorem recalls_atMost {records : List ExecutionRecord} {shares : List Binary64}
    (graded : evaluator.recalls records = .ok shares) :
    shares.length = records.length ∧ ∀ share ∈ shares, AtMost 32 share := by
  obtain ⟨_, -, passed⟩ := Failure.bind_eq_ok_iff.mp graded
  obtain ⟨length, each⟩ := Failure.of_mapM_eq_ok passed
  refine ⟨length, fun share member => ?_⟩
  obtain ⟨record, -, lifted⟩ := each share member
  rcases taken : (evaluator.queryRecall record.index record.resultIds : Except Fault Binary64) with
    broken | value
  · rw [taken] at lifted
    cases lifted
  · rw [taken] at lifted
    cases lifted
    exact queryRecall_atMost taken

theorem isBounded_of_evaluate {run : ExecutionRun} {report : RecallReport}
    (evaluated : evaluator.evaluate run = .ok report) (few : run.records.length < wordLimit) :
    report.IsBounded := by
  obtain ⟨shares, graded, same⟩ := Failure.bind_eq_ok_iff.mp evaluated
  obtain ⟨length, each⟩ := recalls_atMost graded
  cases same
  refine ⟨length.trans_lt few, ?_, (throughput_atMost few run.wallClock).mono (by decide),
    LatencyStats.isBounded_ofDurations ?_, ?_⟩
  · change AtMost 200 (Recall.aggregate shares)
    rw [Recall.aggregate]
    split
    · exact .ofNat (by decide) (by decide)
    · rename_i some
      exact (Statistics.mean_atMost (by decide) (fun none => some (by rw [none]; rfl))
        (length.trans_lt few) each).mono (by decide)
  · rwa [ExecutionRun.latencies, List.length_map]
  · intro recalls kept share member
    change (if evaluator.keepsPerQuery then Option.some shares else none) = Option.some recalls
      at kept
    split at kept
    · cases kept
      exact (each share member).mono (by decide)
    · cases kept

end RecallEvaluator

end RangeRecall
