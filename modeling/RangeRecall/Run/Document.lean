import RangeRecall.Query.Document
import RangeRecall.Run.Basic

/-!
The JSON forms of durations, records and runs.
-/

namespace RangeRecall

open Json

namespace Duration

structure Draft where
  seconds : Option Nat := none
  nanos : Option Nat := none

def form : RecordForm Draft Duration where
  expected := "struct Duration"
  expectedLength := "struct Duration"
  fields := [
    .ofReader "secs" (Reader.natural "u64" wordLimit) Draft.seconds
      fun draft value => { draft with seconds := some value },
    .ofReader "nanos" (Reader.natural "u32" fieldLimit) Draft.nanos
      fun draft value => { draft with nanos := some value }]
  refusesUnknown := true
  blank := {}
  complete draft := do
    let seconds ← required "secs" draft.seconds
    let nanos ← required "nanos" draft.nanos
    match ofParts? seconds nanos with
    | some duration => return duration
    | none => throw .durationOverflow

instance : Document Duration where
  toValue duration := .object [
    ("secs", .integer duration.seconds),
    ("nanos", .integer duration.nanos)]
  reader := Reader.record form

end Duration

namespace ExecutionRecord

structure Draft where
  index : Option Nat := none
  strategy : Option ScanStrategy := none
  latency : Option Duration := none
  resultIds : Option (List UInt64) := none

def form : RecordForm Draft ExecutionRecord where
  expected := "struct ExecutionRecord"
  expectedLength := "struct ExecutionRecord with 4 elements"
  fields := [
    .ofReader "index" (Reader.natural "usize" wordLimit) Draft.index
      fun draft value => { draft with index := some value },
    .ofReader "strategy" Document.reader Draft.strategy
      fun draft value => { draft with strategy := some value },
    .ofReader "latency" Document.reader Draft.latency
      fun draft value => { draft with latency := some value },
    .ofReader "result_ids"
      (Reader.list do return UInt64.ofNat (← Reader.natural "u64" wordLimit)) Draft.resultIds
      fun draft value => { draft with resultIds := some value }]
  blank := {}
  complete draft := do
    let index ← required "index" draft.index
    let strategy ← required "strategy" draft.strategy
    let latency ← required "latency" draft.latency
    let resultIds ← required "result_ids" draft.resultIds
    return { index, strategy, latency, resultIds }

instance : Document ExecutionRecord where
  toValue record := .object [
    ("index", .integer record.index),
    ("strategy", Document.toValue record.strategy),
    ("latency", Document.toValue record.latency),
    ("result_ids", .list (record.resultIds.map fun id => .integer id.toNat))]
  reader := Reader.record form

end ExecutionRecord

namespace ExecutionRun

structure Draft where
  strategy : Option ScanStrategy := none
  records : Option (List ExecutionRecord) := none
  wallClock : Option Duration := none

def form : RecordForm Draft ExecutionRun where
  expected := "struct ExecutionRun"
  expectedLength := "struct ExecutionRun with 3 elements"
  fields := [
    .ofReader "strategy" Document.reader Draft.strategy
      fun draft value => { draft with strategy := some value },
    .ofReader "records" (Reader.list Document.reader) Draft.records
      fun draft value => { draft with records := some value },
    .ofReader "wall_clock" Document.reader Draft.wallClock
      fun draft value => { draft with wallClock := some value }]
  blank := {}
  complete draft := do
    let strategy ← required "strategy" draft.strategy
    let records ← required "records" draft.records
    let wallClock ← required "wall_clock" draft.wallClock
    return { strategy, records, wallClock }

instance : Document ExecutionRun where
  toValue run := .object [
    ("strategy", Document.toValue run.strategy),
    ("records", .list (run.records.map Document.toValue)),
    ("wall_clock", Document.toValue run.wallClock)]
  reader := Reader.record form

end ExecutionRun

end RangeRecall
