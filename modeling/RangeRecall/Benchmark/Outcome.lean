import RangeRecall.Grade.Document
import RangeRecall.Grade.Recall

/-!
What a benchmark answers with, and its JSON form: one report for each strategy
that ran, all against the same queries and the same threshold.
-/

namespace RangeRecall

structure BenchmarkOutcome where
  threshold : Binary32
  queryCount : Nat
  sequentialScan : Option RecallReport := none
  indexScan : Option RecallReport := none
deriving DecidableEq

namespace BenchmarkOutcome

def report? (outcome : BenchmarkOutcome) : ScanStrategy → Option RecallReport
  | .sequentialScan => outcome.sequentialScan
  | .indexScan => outcome.indexScan

def withReport (outcome : BenchmarkOutcome) (report : RecallReport) : BenchmarkOutcome :=
  match report.strategy with
  | .sequentialScan => { outcome with sequentialScan := some report }
  | .indexScan => { outcome with indexScan := some report }

def summary (outcome : BenchmarkOutcome) : String :=
  let heading := "range benchmark: " ++ Decimal.naturalText outcome.queryCount ++
    " queries, threshold " ++ outcome.threshold.plainText
  let reports := ScanStrategy.all.filterMap outcome.report?
  "\n".intercalate (heading :: reports.map fun report => "  " ++ report.summary)

end BenchmarkOutcome

/-! ## Documents -/

open Json

namespace BenchmarkOutcome

structure Draft where
  threshold : Option Binary32 := none
  queryCount : Option Nat := none
  sequentialScan : Option (Option RecallReport) := none
  indexScan : Option (Option RecallReport) := none

/-- An object may leave the reports out, a list of values may not. -/
def form : RecordForm Draft BenchmarkOutcome where
  expected := "struct RangeBenchmarkOutcome"
  expectedLength := "struct RangeBenchmarkOutcome with 4 elements"
  fields := [
    .ofReader "threshold" Reader.single Draft.threshold
      fun draft value => { draft with threshold := some value },
    .ofReader "query_count" (Reader.natural "usize" wordLimit) Draft.queryCount
      fun draft value => { draft with queryCount := some value },
    .ofReader "sequential_scan" (Reader.optional Document.reader) Draft.sequentialScan
      fun draft value => { draft with sequentialScan := some value },
    .ofReader "index_scan" (Reader.optional Document.reader) Draft.indexScan
      fun draft value => { draft with indexScan := some value }]
  blank := {}
  complete draft := do
    let threshold ← required "threshold" draft.threshold
    let queryCount ← required "query_count" draft.queryCount
    return {
      threshold, queryCount
      sequentialScan := draft.sequentialScan.getD none
      indexScan := draft.indexScan.getD none }

def reportValue : Option RecallReport → Value
  | none => .null
  | some report => Document.toValue report

instance : Document BenchmarkOutcome where
  toValue outcome := .object [
    ("threshold", .single outcome.threshold),
    ("query_count", .integer outcome.queryCount),
    ("sequential_scan", reportValue outcome.sequentialScan),
    ("index_scan", reportValue outcome.indexScan)]
  reader := Reader.record form

end BenchmarkOutcome

end RangeRecall
