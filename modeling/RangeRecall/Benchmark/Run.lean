import RangeRecall.Benchmark.Outcome
import RangeRecall.Config.Basic
import RangeRecall.Files.Content
import RangeRecall.Query.Workload
import RangeRecall.Run.Executor
import RangeRecall.Store.Session

/-!
Benchmarks of range queries. One session serves all strategies, each strategy
is a run of its own over the same queries, and every run is graded against the
same ground truth. Results are saved only after everything has succeeded.
-/

namespace RangeRecall

structure Benchmark (σ : Type) where
  config : BenchmarkConfig
  backend : Backend σ
  clock : Clock := Clock.still
  heedsStop : Bool := false

namespace Benchmark

def executor (benchmark : Benchmark σ) : Executor σ where
  backend := benchmark.backend
  clock := benchmark.clock
  heedsStop := benchmark.heedsStop
  progressInterval := benchmark.config.progressInterval

/-- The run of one strategy, labelled with it even if there are no queries. -/
def runStrategy (benchmark : Benchmark σ) (queries : VectorBatch) (threshold : Binary32)
    (strategy : ScanStrategy) : Activity σ ExecutionRun := do
  let run ← benchmark.executor.run (Query.rangeQueries queries threshold strategy)
  return { run with strategy := strategy }

def runStrategies (benchmark : Benchmark σ) (queries : VectorBatch) (threshold : Binary32) :
    Activity σ (List ExecutionRun) := do
  let config := benchmark.config
  let session ← Session.start benchmark.backend config.target config.sessionSettings
  let runs ← Session.dropOnFailure benchmark.backend session
    (Activity.forAll (benchmark.runStrategy queries threshold) config.strategies)
  Session.finish benchmark.backend session
  return runs

def evaluator (config : BenchmarkConfig) (truth : GroundTruth) : RecallEvaluator where
  groundTruth := truth
  idOffset := config.idOffset
  keepsPerQuery := config.perQueryRecall

def grade (evaluator : RecallEvaluator) :
    (runs : List ExecutionRun) → BenchmarkOutcome → Attempt BenchmarkOutcome
  | [], outcome => .ok outcome
  | run :: rest, outcome => do
    let report ← evaluator.evaluate run
    grade evaluator rest (outcome.withReport report)

def outcomeFile : String :=
  "outcome.json"

def runFile (run : ExecutionRun) : String :=
  run.strategy.name ++ ".rbr"

def saveResults (directory : String) (runs : List ExecutionRun)
    (outcome : BenchmarkOutcome) : Activity σ Unit := do
  Activity.changeFiles fun tree => tree.prepareDirectory directory
  let _ ← Activity.forAll
    (fun run => Activity.changeFiles fun tree =>
      tree.orUnchanged (tree.saveRun (PathText.entryIn directory (runFile run)) run))
    runs
  Activity.changeFiles fun tree =>
    tree.orUnchanged (tree.saveDocument (PathText.entryIn directory outcomeFile) outcome)

/-- Runs and grades every configured strategy over a batch of query vectors and their true
neighbors, at the threshold of the ground truth. -/
def runWith (benchmark : Benchmark σ) (queries : VectorBatch) (truth : GroundTruth) :
    Activity σ BenchmarkOutcome := do
  let config := benchmark.config
  Activity.ofResult (config.validateExecution.mapError .invalidConfig)
  if queries.count ≠ truth.queryCount then
    Activity.fail (.error (.alignment queries.count truth.queryCount))
  else
    let runs ← benchmark.runStrategies queries truth.threshold
    let outcome ← Activity.ofAttempt (grade (evaluator config truth) runs
      { threshold := truth.threshold, queryCount := queries.count })
    match config.resultsDirectory with
    | none => return outcome
    | some directory =>
      saveResults directory runs outcome
      return outcome

def run (benchmark : Benchmark σ) : Activity σ BenchmarkOutcome := do
  let config := benchmark.config
  Activity.ofResult (config.validate.mapError .invalidConfig)
  let queries ← Activity.readFiles fun tree => tree.loadBatch config.queryPath true
  let truth ← Activity.readFiles fun tree => tree.loadGroundTruth config.groundTruthPath
  benchmark.runWith queries truth

end Benchmark

end RangeRecall
