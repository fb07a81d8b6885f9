import RangeRecall.Grade.Recall

/-!
Comparison of a top-k run with a baseline run over the same queries. The first
`k` identifiers of the baseline are the relevant ones.
-/

namespace RangeRecall

structure TopKReport where
  k : Nat
  queryCount : Nat
  aggregateRecall : Binary64
  shortResults : Nat
  queriesPerSecond : Binary64
  baselineLatency : LatencyStats
  targetLatency : LatencyStats
deriving DecidableEq

namespace TopKReport

def summary (report : TopKReport) : String :=
  "top-" ++ Decimal.naturalText report.k ++ ": recall=" ++ report.aggregateRecall.fixedText 4 ++
    ", short=" ++ Decimal.naturalText report.shortResults ++ ", qps=" ++
    report.queriesPerSecond.fixedText 1 ++ ", baseline mean=" ++
    report.baselineLatency.mean.fixedText 3 ++ "ms, target mean=" ++
    report.targetLatency.mean.fixedText 3 ++ "ms"

def relevantIds (k : Nat) (baseline : ExecutionRecord) : List UInt64 :=
  baseline.resultIds.take k

def hits (k : Nat) (baseline target : ExecutionRecord) : Nat :=
  (relevantIds k baseline).countP target.resultIds.contains

def totalHits (k : Nat) : (baseline target : List ExecutionRecord) → Nat
  | first :: baseline, second :: target => hits k first second + totalHits k baseline target
  | _, _ => 0

def compare (baseline target : ExecutionRun) (k : Nat) : Except Error TopKReport := do
  if k = 0 then
    throw (.invalidParameter .zeroK)
  if baseline.records.length ≠ target.records.length then
    throw (.alignment target.records.length baseline.records.length)
  checkRecordOrder baseline.records
  checkRecordOrder target.records
  let relevant := (baseline.records.flatMap (relevantIds k)).length
  let found := totalHits k baseline.records target.records
  return {
    k := k
    queryCount := target.records.length
    aggregateRecall := Recall.share found relevant
    shortResults := target.records.countP fun record => record.resultIds.length < k
    queriesPerSecond := throughput target.records.length target.wallClock
    baselineLatency := LatencyStats.ofDurations baseline.latencies
    targetLatency := LatencyStats.ofDurations target.latencies }

end TopKReport

end RangeRecall
