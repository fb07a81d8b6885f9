import RangeRecall.Benchmark.Run
import RangeRecall.Proofs.Store.Activity

/-! What a benchmark does around its session. Before it, the configuration and the number of
queries are checked, and a refusal leaves the environment alone. After it, the runs are graded
and perhaps saved, and the store is not touched again. -/

namespace RangeRecall

namespace Benchmark

variable {benchmark : Benchmark σ} {queries : VectorBatch} {truth : GroundTruth}

theorem runWith_of_invalid {cause : ConfigError}
    (invalid : benchmark.config.validateExecution = .error cause) (environment : Environment σ) :
    benchmark.runWith queries truth environment =
      (.error (.error (.invalidConfig cause)), environment) := by
  have refused : Activity.ofResult (benchmark.config.validateExecution.mapError
      Error.invalidConfig) environment =
        (.error (.error (.invalidConfig cause)), environment) := by
    rw [invalid]
    rfl
  unfold runWith
  exact Activity.bind_run_error refused _

def gradeAndSave (config : BenchmarkConfig) (queries : VectorBatch) (truth : GroundTruth)
    (runs : List ExecutionRun) : Activity σ BenchmarkOutcome := do
  let outcome ← Activity.ofAttempt (grade (evaluator config truth) runs
    { threshold := truth.threshold, queryCount := queries.count })
  match config.resultsDirectory with
  | none => return outcome
  | some directory =>
    saveResults directory runs outcome
    return outcome

theorem runWith_of_valid (valid : benchmark.config.validateExecution = .ok ())
    (environment : Environment σ) :
    benchmark.runWith queries truth environment =
      if queries.count ≠ truth.queryCount then
        (.error (.error (.alignment queries.count truth.queryCount)), environment)
      else
        (benchmark.runStrategies queries truth.threshold >>=
          gradeAndSave benchmark.config queries truth) environment := by
  have accepted : Activity.ofResult (benchmark.config.validateExecution.mapError
      Error.invalidConfig) environment = (.ok (), environment) := by
    rw [valid]
    rfl
  unfold runWith
  rw [Activity.bind_run_ok accepted]
  by_cases aligned : queries.count = truth.queryCount
  · rw [if_neg (fun differ => differ aligned), if_neg (fun differ => differ aligned)]
    rfl
  · rw [if_pos aligned, if_pos aligned]
    rfl

theorem gradeAndSave_leavesStore (config : BenchmarkConfig) (queries : VectorBatch)
    (truth : GroundTruth) (runs : List ExecutionRun) :
    (gradeAndSave config queries truth runs : Activity σ BenchmarkOutcome).LeavesStore := by
  refine .bind (.ofAttempt _) fun outcome => ?_
  cases config.resultsDirectory with
  | none => exact .pure outcome
  | some directory =>
      refine .bind ?_ fun _ => .pure outcome
      exact .bind (.changeFiles _) fun _ =>
        .bind (.forAll (fun _ => .changeFiles _) runs) fun _ => .changeFiles _

theorem gradeAndSave_of_unsaved {config : BenchmarkConfig} {runs : List ExecutionRun}
    (unsaved : config.resultsDirectory = none) (environment : Environment σ) :
    gradeAndSave config queries truth runs environment =
      (grade (evaluator config truth) runs
        { threshold := truth.threshold, queryCount := queries.count }, environment) := by
  unfold gradeAndSave
  rw [unsaved]
  cases graded : grade (evaluator config truth) runs
      { threshold := truth.threshold, queryCount := queries.count } with
  | error failure => exact Activity.bind_run_error (Activity.ofAttempt_run _ _) _
  | ok outcome => exact Activity.bind_run_ok (Activity.ofAttempt_run _ _) _

end Benchmark

end RangeRecall
