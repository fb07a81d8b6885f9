import RangeRecall.Run.Basic
import RangeRecall.Store.Backend

/-!
Runs of queries against a store, one query after another in the given order. A
failure or a stop request ends a run without a result.
-/

namespace RangeRecall

structure Clock where
  latency : Query → Duration
  wallClock : ScanStrategy → Duration

def Clock.still : Clock :=
  { latency := fun _ => Duration.zero, wallClock := fun _ => Duration.zero }

structure Executor (σ : Type) where
  backend : Backend σ
  clock : Clock := Clock.still
  heedsStop : Bool := false
  /-- Progress is logged for the first of so many queries, and never if it is zero. -/
  progressInterval : Nat := 1000

namespace Executor

def execute (executor : Executor σ) (query : Query) : Activity σ ExecutionRecord := do
  let ids ← Activity.call (executor.backend.submit query)
    (Failure.map (Error.storeExecution query))
  return {
    index := query.index
    strategy := query.strategy
    latency := executor.clock.latency query
    resultIds := ids }

def checkStop (executor : Executor σ) (completed : Nat) : Activity σ Unit :=
  fun environment =>
    if executor.heedsStop && executor.backend.stopRequested environment.store then
      (.error (.error (.cancelled completed)), environment)
    else (.ok (), environment)

def reportProgress (executor : Executor σ) (strategy : ScanStrategy) (position total : Nat) :
    Activity σ Unit :=
  if 0 < executor.progressInterval ∧ position % executor.progressInterval = 0 then
    Activity.report (.progress strategy (position + 1) total)
  else Activity.pure ()

def executeFrom (executor : Executor σ) (strategy : ScanStrategy) (total : Nat) :
    (position : Nat) → List Query → Activity σ (List ExecutionRecord)
  | _, [] => Activity.pure []
  | position, query :: rest => do
    executor.checkStop position
    let record ← executor.execute query
    executor.reportProgress strategy position total
    let records ← executor.executeFrom strategy total (position + 1) rest
    return record :: records

/-- The strategy of the first query. Without queries it is the index scan. -/
def strategyOf : List Query → ScanStrategy
  | [] => .indexScan
  | query :: _ => query.strategy

def run (executor : Executor σ) (queries : List Query) : Activity σ ExecutionRun :=
  let strategy := strategyOf queries
  match queries.find? fun query => query.strategy ≠ strategy with
  | some query =>
    Activity.fail (.error (.invalidParameter
      (.mixedStrategies query.index query.strategy strategy)))
  | none => do
    Activity.report (.runStarted strategy queries.length)
    let records ← executor.executeFrom strategy queries.length 0 queries
    Activity.report (.runFinished strategy records.length)
    return {
      strategy := strategy
      records := records
      wallClock := executor.clock.wallClock strategy }

end Executor

end RangeRecall
