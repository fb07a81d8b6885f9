import RangeRecall.Grade.Latency
import RangeRecall.GroundTruth.Basic
import RangeRecall.Run.Basic

/-!
Grading of runs against a ground truth. The recall of a query is the share of
its distinct true neighbors that the store returned, and a run is graded only if
its records are exactly the queries of the ground truth, in order.
-/

namespace RangeRecall

structure RecallReport where
  strategy : ScanStrategy
  queryCount : Nat
  aggregateRecall : Binary64
  queriesPerSecond : Binary64
  wallClock : Duration
  latency : LatencyStats
  perQueryRecall : Option (List Binary64)
deriving DecidableEq

def RecallReport.summary (report : RecallReport) : String :=
  report.strategy.name ++ ": recall=" ++ report.aggregateRecall.fixedText 4 ++ ", qps=" ++
    report.queriesPerSecond.fixedText 1 ++ ", queries=" ++
    Decimal.naturalText report.queryCount ++ ", " ++ report.latency.summary

def firstMisplaced? : (position : Nat) → List ExecutionRecord → Option (Nat × Nat)
  | _, [] => none
  | position, record :: rest =>
    if record.index = position then firstMisplaced? (position + 1) rest
    else some (position, record.index)

def checkRecordOrder (records : List ExecutionRecord) : Except Error Unit :=
  match firstMisplaced? 0 records with
  | some (position, index) => .error (.recordOutOfOrder position index)
  | none => .ok ()

namespace Recall

variable {α : Type} [RealArithmetic α]

/-- The share that `found` is of `total`, one if there is nothing to find. -/
def share (found total : Nat) : α :=
  if total = 0 then RealArithmetic.ofNat 1
  else RealArithmetic.divide (RealArithmetic.ofNat found) (RealArithmetic.ofNat total)

def aggregate (recalls : List α) : α :=
  if recalls.isEmpty then RealArithmetic.ofNat 1 else Statistics.mean recalls

end Recall

structure RecallEvaluator where
  groundTruth : GroundTruth
  idOffset : IdOffset := IdOffset.default
  keepsPerQuery : Bool := false

namespace RecallEvaluator

def countFound (evaluator : RecallEvaluator) (returned : List UInt64) :
    List UInt32 → Except Fault Nat
  | [] => .ok 0
  | neighbor :: rest => do
    let id? ← evaluator.idOffset.storeId? neighbor
    let others ← evaluator.countFound returned rest
    return if id?.any returned.contains then others + 1 else others

def tally (evaluator : RecallEvaluator) (query : Nat) (returned : List UInt64) :
    Except Fault (Nat × Nat) := do
  let expected := (← evaluator.groundTruth.neighbors query).eraseDups
  let found ← evaluator.countFound returned expected
  return (found, expected.length)

def queryRecall [RealArithmetic α] (evaluator : RecallEvaluator) (query : Nat)
    (returned : List UInt64) : Except Fault α := do
  let (found, total) ← evaluator.tally query returned
  return Recall.share found total

def checkAlignment (evaluator : RecallEvaluator) (records : List ExecutionRecord) :
    Except Error Unit :=
  if records.length = evaluator.groundTruth.queryCount then checkRecordOrder records
  else .error (.alignment records.length evaluator.groundTruth.queryCount)

def recalls [RealArithmetic α] (evaluator : RecallEvaluator) (records : List ExecutionRecord) :
    Attempt (List α) := do
  evaluator.checkAlignment records
  records.mapM fun record => (evaluator.queryRecall record.index record.resultIds : Except _ _)

def evaluate (evaluator : RecallEvaluator) (run : ExecutionRun) : Attempt RecallReport := do
  let recalls : List Binary64 ← evaluator.recalls run.records
  return {
    strategy := run.strategy
    queryCount := recalls.length
    aggregateRecall := Recall.aggregate recalls
    queriesPerSecond := throughput run.records.length run.wallClock
    wallClock := run.wallClock
    latency := LatencyStats.ofDurations run.latencies
    perQueryRecall := if evaluator.keepsPerQuery then some recalls else none }

end RecallEvaluator

end RangeRecall
