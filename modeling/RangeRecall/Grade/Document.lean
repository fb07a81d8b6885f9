import RangeRecall.Grade.TopK
import RangeRecall.Run.Document

/-!
The JSON forms of latency statistics and of reports.
-/

namespace RangeRecall

open Json

namespace LatencyStats

structure Draft where
  count : Option Nat := none
  mean : Option Binary64 := none
  p50 : Option Binary64 := none
  p95 : Option Binary64 := none
  p99 : Option Binary64 := none
  least : Option Binary64 := none
  greatest : Option Binary64 := none

def form : RecordForm Draft LatencyStats where
  expected := "struct LatencyStats"
  expectedLength := "struct LatencyStats with 7 elements"
  fields := [
    .ofReader "count" (Reader.natural "usize" wordLimit) Draft.count
      fun draft value => { draft with count := some value },
    .ofReader "mean_ms" Reader.double Draft.mean
      fun draft value => { draft with mean := some value },
    .ofReader "p50_ms" Reader.double Draft.p50
      fun draft value => { draft with p50 := some value },
    .ofReader "p95_ms" Reader.double Draft.p95
      fun draft value => { draft with p95 := some value },
    .ofReader "p99_ms" Reader.double Draft.p99
      fun draft value => { draft with p99 := some value },
    .ofReader "min_ms" Reader.double Draft.least
      fun draft value => { draft with least := some value },
    .ofReader "max_ms" Reader.double Draft.greatest
      fun draft value => { draft with greatest := some value }]
  blank := {}
  complete draft := do
    let count ← required "count" draft.count
    let mean ← required "mean_ms" draft.mean
    let p50 ← required "p50_ms" draft.p50
    let p95 ← required "p95_ms" draft.p95
    let p99 ← required "p99_ms" draft.p99
    let least ← required "min_ms" draft.least
    let greatest ← required "max_ms" draft.greatest
    return { count, mean, p50, p95, p99, least, greatest }

instance : Document LatencyStats where
  toValue stats := .object [
    ("count", .integer stats.count),
    ("mean_ms", .double stats.mean),
    ("p50_ms", .double stats.p50),
    ("p95_ms", .double stats.p95),
    ("p99_ms", .double stats.p99),
    ("min_ms", .double stats.least),
    ("max_ms", .double stats.greatest)]
  reader := Reader.record form

end LatencyStats

namespace RecallReport

structure Draft where
  strategy : Option ScanStrategy := none
  queryCount : Option Nat := none
  aggregateRecall : Option Binary64 := none
  queriesPerSecond : Option Binary64 := none
  wallClock : Option Duration := none
  latency : Option LatencyStats := none
  perQueryRecall : Option (Option (List Binary64)) := none

def form : RecordForm Draft RecallReport where
  expected := "struct RecallReport"
  expectedLength := "struct RecallReport with 7 elements"
  fields := [
    .ofReader "strategy" Document.reader Draft.strategy
      fun draft value => { draft with strategy := some value },
    .ofReader "query_count" (Reader.natural "usize" wordLimit) Draft.queryCount
      fun draft value => { draft with queryCount := some value },
    .ofReader "aggregate_recall" Reader.double Draft.aggregateRecall
      fun draft value => { draft with aggregateRecall := some value },
    .ofReader "qps" Reader.double Draft.queriesPerSecond
      fun draft value => { draft with queriesPerSecond := some value },
    .ofReader "wall_clock" Document.reader Draft.wallClock
      fun draft value => { draft with wallClock := some value },
    .ofReader "latency" Document.reader Draft.latency
      fun draft value => { draft with latency := some value },
    { RecordField.ofReader "per_query_recall" (Reader.optional (Reader.list Reader.double))
        Draft.perQueryRecall fun draft value => { draft with perQueryRecall := some value }
      with optional := true }]
  blank := {}
  complete draft := do
    let strategy ← required "strategy" draft.strategy
    let queryCount ← required "query_count" draft.queryCount
    let aggregateRecall ← required "aggregate_recall" draft.aggregateRecall
    let queriesPerSecond ← required "qps" draft.queriesPerSecond
    let wallClock ← required "wall_clock" draft.wallClock
    let latency ← required "latency" draft.latency
    return {
      strategy, queryCount, aggregateRecall, queriesPerSecond, wallClock, latency
      perQueryRecall := draft.perQueryRecall.getD none }

instance : Document RecallReport where
  toValue report := .object [
    ("strategy", Document.toValue report.strategy),
    ("query_count", .integer report.queryCount),
    ("aggregate_recall", .double report.aggregateRecall),
    ("qps", .double report.queriesPerSecond),
    ("wall_clock", Document.toValue report.wallClock),
    ("latency", Document.toValue report.latency),
    ("per_query_recall", match report.perQueryRecall with
      | none => .null
      | some recalls => .list (recalls.map .double))]
  reader := Reader.record form

end RecallReport

namespace TopKReport

structure Draft where
  k : Option Nat := none
  queryCount : Option Nat := none
  aggregateRecall : Option Binary64 := none
  shortResults : Option Nat := none
  queriesPerSecond : Option Binary64 := none
  baselineLatency : Option LatencyStats := none
  targetLatency : Option LatencyStats := none

def form : RecordForm Draft TopKReport where
  expected := "struct TopKReport"
  expectedLength := "struct TopKReport with 7 elements"
  fields := [
    .ofReader "k" (Reader.natural "usize" wordLimit) Draft.k
      fun draft value => { draft with k := some value },
    .ofReader "query_count" (Reader.natural "usize" wordLimit) Draft.queryCount
      fun draft value => { draft with queryCount := some value },
    .ofReader "recall" Reader.double Draft.aggregateRecall
      fun draft value => { draft with aggregateRecall := some value },
    .ofReader "short_results" (Reader.natural "usize" wordLimit) Draft.shortResults
      fun draft value => { draft with shortResults := some value },
    .ofReader "qps" Reader.double Draft.queriesPerSecond
      fun draft value => { draft with queriesPerSecond := some value },
    .ofReader "baseline_latency" Document.reader Draft.baselineLatency
      fun draft value => { draft with baselineLatency := some value },
    .ofReader "target_latency" Document.reader Draft.targetLatency
      fun draft value => { draft with targetLatency := some value }]
  blank := {}
  complete draft := do
    let k ← required "k" draft.k
    let queryCount ← required "query_count" draft.queryCount
    let aggregateRecall ← required "recall" draft.aggregateRecall
    let shortResults ← required "short_results" draft.shortResults
    let queriesPerSecond ← required "qps" draft.queriesPerSecond
    let baselineLatency ← required "baseline_latency" draft.baselineLatency
    let targetLatency ← required "target_latency" draft.targetLatency
    return {
      k, queryCount, aggregateRecall, shortResults, queriesPerSecond, baselineLatency
      targetLatency }

instance : Document TopKReport where
  toValue report := .object [
    ("k", .integer report.k),
    ("query_count", .integer report.queryCount),
    ("recall", .double report.aggregateRecall),
    ("short_results", .integer report.shortResults),
    ("qps", .double report.queriesPerSecond),
    ("baseline_latency", Document.toValue report.baselineLatency),
    ("target_latency", Document.toValue report.targetLatency)]
  reader := Reader.record form

end TopKReport

end RangeRecall
