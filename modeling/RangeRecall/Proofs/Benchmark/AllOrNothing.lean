import RangeRecall.Proofs.Benchmark.PerfectRecall
import RangeRecall.Proofs.Benchmark.StoreCalls
import RangeRecall.Proofs.Grade.SetRecall
import RangeRecall.Proofs.Run.Endings
import RangeRecall.Proofs.Store.FirstFailure

/-! Benchmarks succeed as a whole or not at all. The calls of a session stand in one list, from
its connect to its close, and the benchmark fails exactly as the first of them does that fails.
If none does, every run can be graded, and only then are files written. -/

namespace RangeRecall

open Activity (Follows)

namespace Executor

variable {executor : Executor σ}

theorem submit_follows {query : Query} {position : Nat} (numbered : query.index = position) :
    Follows executor.backend executor.heedsStop
      (executor.checkStop position >>= fun _ => executor.execute query) [.submit query]
      fun record => record.index = position := by
  intro environment
  cases stop : executor.seesStop environment.store with
  | true =>
      have stopped : executor.checkStop position environment =
          (.error (.error (.cancelled position)), environment) := if_pos stop
      have cancelled : executor.backend.failure? executor.heedsStop environment.store
          (.submit query) = some (.error (.cancelled position)) := by
        rw [← numbered]
        exact if_pos stop
      rw [Backend.firstFailure?, cancelled]
      exact ⟨environment, rfl, Activity.bind_run_error stopped _⟩
  | false =>
      have free : executor.backend.failure? executor.heedsStop environment.store
          (.submit query) = executor.backend.failure? false environment.store (.submit query) :=
        if_neg (Bool.eq_false_iff.mp stop)
      have submitted : Follows executor.backend false (executor.execute query) [.submit query]
          fun record => record.index = position :=
        .bind (.call (fun _ => rfl) fun _ => rfl) fun _ _ => .pure numbered
      rw [Activity.bind_run_ok (checkStop_run stop position), Backend.firstFailure?, free]
      exact submitted environment

theorem reportProgress_follows (strategy : ScanStrategy) (position total : Nat) :
    Follows executor.backend executor.heedsStop
      (executor.reportProgress strategy position total) [] fun _ => True := by
  unfold reportProgress
  split
  · exact .report _
  · exact .pure trivial

theorem executeFrom_follows {queries : List Query} {position : Nat}
    (numbered : queries.map Query.index = List.range' position queries.length)
    (strategy : ScanStrategy) (total : Nat) :
    Follows executor.backend executor.heedsStop
      (executor.executeFrom strategy total position queries) (plan queries)
      fun records => records.map ExecutionRecord.index =
        List.range' position queries.length := by
  induction queries generalizing position with
  | nil => exact .pure rfl
  | cons query rest induction =>
      rw [List.map_cons, List.length_cons, List.range'_succ, List.cons_eq_cons] at numbered
      have others (record : ExecutionRecord) (first : record.index = position) :
          Follows executor.backend executor.heedsStop (do
            executor.reportProgress strategy position total
            let records ← executor.executeFrom strategy total (position + 1) rest
            return record :: records) ([] ++ (plan rest ++ [])) fun records =>
              records.map ExecutionRecord.index =
                List.range' position (query :: rest).length := by
        refine .bind (reportProgress_follows strategy position total) fun _ _ => ?_
        refine .bind (induction numbered.2) fun records indices => .pure ?_
        rw [List.map_cons, first, indices, List.length_cons, List.range'_succ]
      have whole := (submit_follows numbered.1).bind others
      rw [Activity.bind_assoc, List.nil_append, List.append_nil] at whole
      exact whole

theorem run_follows (executor : Executor σ) {queries : List Query}
    (same : ∀ query ∈ queries, query.strategy = strategyOf queries)
    (numbered : queries.map Query.index = List.range' 0 queries.length) :
    Follows executor.backend executor.heedsStop (executor.run queries) (plan queries)
      fun run => run.records.length = queries.length ∧ run.InOrder := by
  rw [run_of_one_strategy same]
  have framed : plan queries = [] ++ (plan queries ++ ([] ++ [])) := by simp
  rw [framed]
  refine .bind (.report _) fun _ _ =>
    .bind (executeFrom_follows numbered (strategyOf queries) queries.length) fun records indices =>
      .bind (.report _) fun _ _ => .pure ?_
  have length : records.length = queries.length := by
    have counted := congrArg List.length indices
    rwa [List.length_map, List.length_range'] at counted
  refine ⟨length, ExecutionRun.inOrder_iff.mpr ?_⟩
  rw [indices, length]

end Executor

namespace Benchmark

variable {benchmark : Benchmark σ} {queries : VectorBatch} {threshold : Binary32}

/-! ## Sessions -/

def sessionCalls (config : BenchmarkConfig) (queries : VectorBatch) (threshold : Binary32) :
    List StoreCall :=
  .connect config.target :: (plan config queries threshold ++ [.close])

/-- The run of a strategy is labelled with it and has one record for each query, in order. -/
structure RunsAll (queries : VectorBatch) (strategy : ScanStrategy) (run : ExecutionRun) :
    Prop where
  strategy : run.strategy = strategy
  complete : run.records.length = queries.count
  inOrder : run.InOrder

theorem runStrategy_follows (strategy : ScanStrategy) :
    Follows benchmark.backend benchmark.heedsStop
      (benchmark.runStrategy queries threshold strategy)
      (Executor.plan (Query.rangeQueries queries threshold strategy))
      (RunsAll queries strategy) := by
  have numbered : (Query.rangeQueries queries threshold strategy).map Query.index =
      List.range' 0 (Query.rangeQueries queries threshold strategy).length := by
    rw [Query.length_rangeQueries, Query.rangeQueries_eq_map, List.map_map, ← List.range_eq_range']
    exact List.map_id _
  have ran : Follows benchmark.backend benchmark.heedsStop
      (benchmark.runStrategy queries threshold strategy)
      (Executor.plan (Query.rangeQueries queries threshold strategy) ++ [])
      (RunsAll queries strategy) := by
    refine .bind (Executor.run_follows benchmark.executor
      (fun _ => Query.strategyOf_numbered) numbered) fun run aligned => .pure ?_
    exact ⟨rfl, aligned.1.trans (Query.length_rangeQueries queries threshold strategy), aligned.2⟩
  rwa [List.append_nil] at ran

theorem runStrategies_follows (benchmark : Benchmark σ) (queries : VectorBatch)
    (threshold : Binary32) :
    Follows benchmark.backend benchmark.heedsStop (benchmark.runStrategies queries threshold)
      (sessionCalls benchmark.config queries threshold)
      (List.Forall₂ (RunsAll queries) benchmark.config.strategies) := by
  have calls : sessionCalls benchmark.config queries threshold =
      (.connect benchmark.config.target :: settingCalls benchmark.config) ++
        (queryCalls benchmark.config queries threshold ++ ([.close] ++ [])) := by
    simp [sessionCalls, plan]
  rw [calls, queryCalls_eq]
  refine .bind (Session.start_follows _ _) fun _ _ => ?_
  refine .bind (Session.dropOnFailure_follows (.forAll runStrategy_follows _)) fun runs ran => ?_
  exact .bind Session.finish_follows fun _ _ => .pure ran

end Benchmark

/-! ## Grading -/

theorem BenchmarkOutcome.foldl_withReport_queries (reports : List RecallReport)
    (outcome : BenchmarkOutcome) :
    (reports.foldl withReport outcome).threshold = outcome.threshold ∧
      (reports.foldl withReport outcome).queryCount = outcome.queryCount := by
  induction reports generalizing outcome with
  | nil => exact ⟨rfl, rfl⟩
  | cons report rest induction =>
      rw [List.foldl_cons, (induction _).1, (induction _).2, withReport]
      cases report.strategy <;> exact ⟨rfl, rfl⟩

namespace Benchmark

/-- What an outcome says about the runs of some strategies: one report for each of them, which is
labelled with it and counts all queries, and none for the others. -/
structure Summarizes (evaluator : RecallEvaluator) (queries : VectorBatch)
    (strategies : List ScanStrategy) (runs : List ExecutionRun) (outcome : BenchmarkOutcome) :
    Prop where
  threshold : outcome.threshold = evaluator.groundTruth.threshold
  queryCount : outcome.queryCount = queries.count
  reports : ∀ strategy ∈ strategies, ∃ run ∈ runs, ∃ report,
    run.strategy = strategy ∧ evaluator.evaluate run = .ok report ∧
      outcome.report? strategy = some report ∧ report.strategy = strategy ∧
      report.queryCount = queries.count
  others : ∀ strategy ∉ strategies, outcome.report? strategy = none

theorem map_strategy_of_runsAll {strategies : List ScanStrategy} {runs : List ExecutionRun}
    (ran : List.Forall₂ (RunsAll queries) strategies runs) :
    runs.map ExecutionRun.strategy = strategies := by
  induction ran with
  | nil => rfl
  | cons first _ induction => rw [List.map_cons, first.strategy, induction]

theorem aligned_of_runsAll {strategies : List ScanStrategy} {runs : List ExecutionRun}
    (ran : List.Forall₂ (RunsAll queries) strategies runs) :
    ∀ run ∈ runs, run.records.length = queries.count ∧ run.InOrder := by
  induction ran with
  | nil => simp
  | cons first _ induction =>
      exact List.forall_mem_cons.mpr ⟨⟨first.complete, first.inOrder⟩, induction⟩

theorem grade_of_runsAll {evaluator : RecallEvaluator} {strategies : List ScanStrategy}
    {runs : List ExecutionRun} (fits : evaluator.ShiftsFit)
    (counts : queries.count = evaluator.groundTruth.queryCount) (distinct : strategies.Nodup)
    (ran : List.Forall₂ (RunsAll queries) strategies runs) :
    ∃ outcome, grade evaluator runs {
        threshold := evaluator.groundTruth.threshold, queryCount := queries.count } =
          .ok outcome ∧ Summarizes evaluator queries strategies runs outcome := by
  let reportOf (run : ExecutionRun) : RecallReport :=
    evaluator.reportOn run (run.records.map evaluator.setRecall)
  let begun : BenchmarkOutcome :=
    { threshold := evaluator.groundTruth.threshold, queryCount := queries.count }
  have aligned := aligned_of_runsAll ran
  have evaluated : ∀ run ∈ runs, evaluator.evaluate run = .ok (reportOf run) :=
    fun run member => (RecallEvaluator.evaluate_of_aligned fits
      ((aligned run member).1.trans counts) (aligned run member).2).2
  have labels : (runs.map reportOf).map RecallReport.strategy = strategies := by
    rw [List.map_map, ← map_strategy_of_runsAll ran]
    rfl
  have kept := BenchmarkOutcome.foldl_withReport_queries (runs.map reportOf) begun
  refine ⟨_, grade_eq_ok evaluated begun, kept.1, kept.2, ?_, ?_⟩
  · intro strategy member
    rw [← map_strategy_of_runsAll ran] at member
    rcases List.mem_map.mp member with ⟨run, runMember, rfl⟩
    have found := BenchmarkOutcome.report?_foldl_of_mem (labels ▸ distinct)
      (List.mem_map_of_mem runMember) begun
    exact ⟨run, runMember, reportOf run, rfl, evaluated run runMember, found, rfl,
      (List.length_map _).trans (aligned run runMember).1⟩
  · intro strategy absent
    rw [BenchmarkOutcome.report?_foldl_of_not_mem (labels ▸ absent) begun]
    cases strategy <;> rfl

end Benchmark

/-! ## Saving -/

def FileTree.changeAll (tree : FileTree) :
    List (FileTree → Except Error Unit × FileTree) → Except Error Unit × FileTree
  | [] => (.ok (), tree)
  | change :: rest =>
      match change tree with
      | (.error cause, next) => (.error cause, next)
      | (.ok (), next) => next.changeAll rest

namespace Benchmark

def resultFiles (directory : String) (runs : List ExecutionRun) (outcome : BenchmarkOutcome) :
    List (FileTree → Except Error Unit × FileTree) :=
  (fun tree => tree.prepareDirectory directory) ::
    (runs.map fun run tree =>
      tree.orUnchanged (tree.saveRun (PathText.entryIn directory (runFile run)) run)) ++
    [fun tree =>
      tree.orUnchanged (tree.saveDocument (PathText.entryIn directory outcomeFile) outcome)]

theorem changeFiles_bind (change : FileTree → Except Error Unit × FileTree)
    (second : Unit → Activity σ α) (environment : Environment σ) :
    (Activity.changeFiles change >>= second) environment =
      match change environment.files with
      | (.error cause, files) => (.error (.error cause), { environment with files := files })
      | (.ok (), files) => second () { environment with files := files } := by
  rw [Activity.bind_run]
  unfold Activity.changeFiles
  rcases change environment.files with ⟨cause | _, files⟩ <;> rfl

theorem changeFiles_forAll (change : α → FileTree → Except Error Unit × FileTree)
    (final : FileTree → Except Error Unit × FileTree) (items : List α)
    (environment : Environment σ) :
    (Activity.forAll (fun item => Activity.changeFiles (change item)) items >>= fun _ =>
      Activity.changeFiles final) environment =
      let saved := environment.files.changeAll (items.map change ++ [final])
      (saved.1.mapError .error, { environment with files := saved.2 }) := by
  induction items generalizing environment with
  | nil =>
      change Activity.changeFiles final environment = _
      simp only [Activity.changeFiles, List.map_nil, List.nil_append, FileTree.changeAll]
      rcases final environment.files with ⟨cause | _, files⟩ <;> rfl
  | cons item rest induction =>
      rw [Activity.forAll_cons, Activity.bind_assoc, changeFiles_bind, List.map_cons,
        List.cons_append, FileTree.changeAll]
      rcases change item environment.files with ⟨cause | _, files⟩
      · rfl
      · have later := induction { environment with files := files }
        rw [← later, Activity.bind_assoc]
        rfl

theorem saveResults_run (directory : String) (runs : List ExecutionRun)
    (outcome : BenchmarkOutcome) (environment : Environment σ) :
    saveResults directory runs outcome environment =
      let saved := environment.files.changeAll (resultFiles directory runs outcome)
      (saved.1.mapError .error, { environment with files := saved.2 }) := by
  rw [saveResults, changeFiles_bind, resultFiles, List.cons_append, FileTree.changeAll]
  rcases environment.files.prepareDirectory directory with ⟨cause | _, files⟩
  · rfl
  · exact changeFiles_forAll (fun run tree =>
      tree.orUnchanged (tree.saveRun (PathText.entryIn directory (runFile run)) run)) _ runs _

theorem gradeAndSave_of_graded {config : BenchmarkConfig} {truth : GroundTruth}
    {runs : List ExecutionRun} {outcome : BenchmarkOutcome}
    (graded : grade (evaluator config truth) runs
      { threshold := truth.threshold, queryCount := queries.count } = .ok outcome)
    (environment : Environment σ) :
    gradeAndSave config queries truth runs environment =
      match config.resultsDirectory with
      | none => (.ok outcome, environment)
      | some directory =>
          let saved := environment.files.changeAll (resultFiles directory runs outcome)
          ((saved.1.mapError .error).map fun _ => outcome,
            { environment with files := saved.2 }) := by
  have attempted : Activity.ofAttempt (grade (evaluator config truth) runs
      { threshold := truth.threshold, queryCount := queries.count }) environment =
        (.ok outcome, environment) := by
    rw [Activity.ofAttempt_run, graded]
  rw [gradeAndSave, Activity.bind_run_ok attempted]
  cases config.resultsDirectory with
  | none => rfl
  | some directory =>
      simp only [Activity.bind_run, saveResults_run]
      rcases (environment.files.changeAll (resultFiles directory runs outcome)).1 with
        cause | _ <;> rfl

/-! ## The whole benchmark -/

section

variable {benchmark : Benchmark σ} {queries : VectorBatch} {truth : GroundTruth}
  {environment : Environment σ}

theorem runWith_of_failure {failure : Failure Error}
    (valid : benchmark.config.validateExecution = .ok ())
    (aligned : queries.count = truth.queryCount)
    (failed : benchmark.backend.firstFailure? benchmark.heedsStop
      (sessionCalls benchmark.config queries truth.threshold) environment.store = some failure) :
    ∃ last, benchmark.runWith queries truth environment = (.error failure, last) ∧
      last.files = environment.files := by
  rcases runStrategies_follows benchmark queries truth.threshold environment with
    ⟨last, files, ending⟩
  rw [failed] at ending
  refine ⟨last, ?_, files⟩
  rw [runWith_of_valid valid, if_neg (fun differ => differ aligned)]
  exact Activity.bind_run_error ending _

theorem runWith_of_success
    (fits : ∀ neighbor ∈ truth.neighborIds,
      (neighbor.toNat : Int) + benchmark.config.idOffset.shift.toInt < signedLimit)
    (valid : benchmark.config.validateExecution = .ok ())
    (aligned : queries.count = truth.queryCount)
    (succeeds : benchmark.backend.firstFailure? benchmark.heedsStop
      (sessionCalls benchmark.config queries truth.threshold) environment.store = none) :
    ∃ runs outcome last,
      List.Forall₂ (RunsAll queries) benchmark.config.strategies runs ∧
      Summarizes (evaluator benchmark.config truth) queries benchmark.config.strategies runs
        outcome ∧
      last.files = environment.files ∧
      benchmark.runWith queries truth environment =
        match benchmark.config.resultsDirectory with
        | none => (.ok outcome, last)
        | some directory =>
            let saved := environment.files.changeAll (resultFiles directory runs outcome)
            ((saved.1.mapError .error).map fun _ => outcome, { last with files := saved.2 }) := by
  rcases runStrategies_follows benchmark queries truth.threshold environment with
    ⟨last, files, ending⟩
  rw [succeeds] at ending
  rcases ending with ⟨-, runs, ran, all⟩
  have shiftsFit : (evaluator benchmark.config truth).ShiftsFit :=
    RecallEvaluator.shiftsFit_of_neighborIds fits
  rcases grade_of_runsAll shiftsFit aligned (BenchmarkConfig.nodup_strategies valid) all with
    ⟨outcome, graded, summary⟩
  refine ⟨runs, outcome, last, all, summary, files, ?_⟩
  rw [runWith_of_valid valid, if_neg (fun differ => differ aligned), Activity.bind_run_ok ran,
    gradeAndSave_of_graded graded, files]

end

/-- If no shifted neighbor leaves the signed words, a benchmark fails with the first of these
that fails, in this order: the check of the configuration, the comparison of the numbers of
queries, the calls of the session from its connect to its close, the writing of the results. No
file is touched before the last of them. If all succeed, it answers with one report for each
configured strategy. -/
theorem runWith_all_or_nothing {benchmark : Benchmark σ} {truth : GroundTruth}
    (fits : ∀ neighbor ∈ truth.neighborIds,
      (neighbor.toNat : Int) + benchmark.config.idOffset.shift.toInt < signedLimit)
    (queries : VectorBatch) (environment : Environment σ) :
    let config := benchmark.config
    let ended := benchmark.runWith queries truth environment
    match config.validateExecution with
    | .error cause => ended = (.error (.error (.invalidConfig cause)), environment)
    | .ok () =>
        if queries.count ≠ truth.queryCount then
          ended = (.error (.error (.alignment queries.count truth.queryCount)), environment)
        else
          match benchmark.backend.firstFailure? benchmark.heedsStop
              (sessionCalls config queries truth.threshold) environment.store with
          | some failure => ended.1 = .error failure ∧ ended.2.files = environment.files
          | none => ∃ runs outcome,
              List.Forall₂ (RunsAll queries) config.strategies runs ∧
              Summarizes (evaluator config truth) queries config.strategies runs outcome ∧
              match config.resultsDirectory with
              | none => ended.1 = .ok outcome ∧ ended.2.files = environment.files
              | some directory =>
                  let saved := environment.files.changeAll (resultFiles directory runs outcome)
                  ended.2.files = saved.2 ∧
                    match saved.1 with
                    | .error cause => ended.1 = .error (.error cause)
                    | .ok () => ended.1 = .ok outcome := by
  intro config ended
  rcases validity : config.validateExecution with cause | _
  · exact runWith_of_invalid validity environment
  · by_cases aligned : queries.count = truth.queryCount
    · rw [if_neg (fun differ => differ aligned)]
      rcases failed : benchmark.backend.firstFailure? benchmark.heedsStop
          (sessionCalls config queries truth.threshold) environment.store with _ | failure
      · rcases runWith_of_success fits validity aligned failed with
          ⟨runs, outcome, last, all, summary, files, run⟩
        refine ⟨runs, outcome, all, summary, ?_⟩
        rcases saves : config.resultsDirectory with _ | directory
        · have unsaved : benchmark.config.resultsDirectory = none := saves
          rw [unsaved] at run
          exact ⟨congrArg Prod.fst run, (congrArg (fun ended => ended.2.files) run).trans files⟩
        · have saved : benchmark.config.resultsDirectory = some directory := saves
          rw [saved] at run
          refine ⟨congrArg (fun ended => ended.2.files) run, ?_⟩
          have answer := congrArg Prod.fst run
          rcases written : (environment.files.changeAll (resultFiles directory runs outcome)).1 with
            cause | _
          · simp only [written] at answer ⊢
            exact answer
          · simp only [written] at answer ⊢
            exact answer
      · rcases runWith_of_failure validity aligned failed with ⟨last, run, files⟩
        exact ⟨congrArg Prod.fst run, (congrArg (fun ended => ended.2.files) run).trans files⟩
    · rw [if_pos aligned]
      exact (runWith_of_valid validity environment).trans (if_pos aligned)

def firstRowOnly : GroundTruth where
  threshold := ⟨0x3f800000⟩
  offsets := [0, 1]
  neighborIds := [0]
  neighborDistances := [⟨0⟩]
  rowOffsets := by decide
  length_distances := rfl

theorem one_query_reported :
    ∃ outcome,
      ((inMemory {} Clock.still false).runWith (onLine [⟨0⟩]) firstRowOnly {
        store := MemoryHost.ofStore (MemoryStore.numberedFrom 1 (onLine [⟨0⟩])) }).1 =
          .ok outcome ∧
        ∀ strategy ∈ ScanStrategy.all, ∃ report, outcome.report? strategy = some report ∧
          report.strategy = strategy ∧ report.queryCount = 1 := by
  have fits : ∀ neighbor ∈ firstRowOnly.neighborIds,
      (neighbor.toNat : Int) + ({} : BenchmarkConfig).idOffset.shift.toInt < signedLimit := by
    intro neighbor _
    have shift : ({} : BenchmarkConfig).idOffset.shift.toInt = 1 := by decide
    have bound := neighbor.toNat_lt
    simp only [shift, signedLimit]
    omega
  have answered : MemoryHost.backend.firstFailure? false
      (sessionCalls {} (onLine [⟨0⟩]) firstRowOnly.threshold)
      (MemoryHost.ofStore (MemoryStore.numberedFrom 1 (onLine [⟨0⟩]))) = none := by
    decide +kernel
  have whole := @runWith_all_or_nothing _ (inMemory {} Clock.still false) _ fits (onLine [⟨0⟩]) {
      store := MemoryHost.ofStore (MemoryStore.numberedFrom 1 (onLine [⟨0⟩])) }
  simp only [inMemory, answered] at whole
  rcases whole with ⟨runs, outcome, -, summary, answer, -⟩
  refine ⟨outcome, answer, fun strategy member => ?_⟩
  rcases summary.reports strategy member with ⟨_, _, report, _, _, found, label, count⟩
  exact ⟨report, found, label, count⟩

end Benchmark

end RangeRecall
