import RangeRecall.Proofs.Benchmark.Admission
import RangeRecall.Proofs.Run.OneStrategy
import RangeRecall.Proofs.Store.CallPlan

/-! The calls that a benchmark makes to its store. Between one connect and one close stands the
plan of the configuration: all settings, then the queries of each strategy. It is carried out
as far as the store and stop requests let it, and the close follows in every case. -/

namespace RangeRecall

open Activity (CarriesOut LeavesStore)

namespace Executor

variable {backend : Backend σ}

def plan (queries : List Query) : List StoreCall :=
  queries.map .submit

theorem submit_carriesOut (executor : Executor (σ × List StoreCall))
    (recorded : executor.backend = backend.recorded) (position : Nat) (query : Query) :
    CarriesOut backend executor.heedsStop
      (executor.checkStop position >>= fun _ => executor.execute query) [.submit query] := by
  intro environment
  by_cases stops : (executor.heedsStop && backend.stopRequested environment.store.1) = true
  · have stopped : executor.checkStop position environment =
        (.error (.error (.cancelled position)), environment) := by
      simp only [checkStop, recorded]
      exact if_pos stops
    rw [Activity.bind_run_error stopped]
    simp [Backend.carryOut, StoreCall.isSubmit, stops, Except.isOk, Except.toBool]
  · have passed : executor.checkStop position environment = (.ok (), environment) := by
      simp only [checkStop, recorded]
      exact if_neg stops
    have submitted : CarriesOut backend false (executor.execute query) [.submit query] := by
      unfold execute
      rw [recorded]
      exact .bind (.call _ rfl fun _ _ => ⟨rfl, rfl⟩) fun _ => .pure _
    rw [Activity.bind_run_ok passed]
    simpa [Backend.carryOut, StoreCall.isSubmit, stops] using submitted environment

theorem reportProgress_carriesOut (executor : Executor (σ × List StoreCall)) (heedsStop : Bool)
    (strategy : ScanStrategy) (position total : Nat) :
    CarriesOut backend heedsStop (executor.reportProgress strategy position total) [] := by
  unfold reportProgress
  split
  · exact .report _
  · exact .pure _

theorem executeFrom_carriesOut (executor : Executor (σ × List StoreCall))
    (recorded : executor.backend = backend.recorded) (strategy : ScanStrategy) (total : Nat)
    (queries : List Query) (position : Nat) :
    CarriesOut backend executor.heedsStop (executor.executeFrom strategy total position queries)
      (plan queries) := by
  induction queries generalizing position with
  | nil => exact .pure []
  | cons query rest induction =>
      have submitted := submit_carriesOut executor recorded position query
      have others (record : ExecutionRecord) :
          CarriesOut backend executor.heedsStop (do
            executor.reportProgress strategy position total
            let records ← executor.executeFrom strategy total (position + 1) rest
            return record :: records) ([] ++ (plan rest ++ [])) :=
        .bind (reportProgress_carriesOut executor executor.heedsStop strategy position total)
          fun _ => .bind (induction (position + 1)) fun _ => .pure _
      have whole := submitted.bind others
      rw [Activity.bind_assoc] at whole
      rw [executeFrom]
      simpa only [List.nil_append, List.append_nil, List.singleton_append, plan,
        List.map_cons] using whole

theorem run_carriesOut (executor : Executor (σ × List StoreCall))
    (recorded : executor.backend = backend.recorded) {queries : List Query}
    (same : ∀ query ∈ queries, query.strategy = strategyOf queries) :
    CarriesOut backend executor.heedsStop (executor.run queries) (plan queries) := by
  rw [run_of_one_strategy same]
  have submitted := executeFrom_carriesOut executor recorded (strategyOf queries)
    queries.length queries 0
  have framed : plan queries = [] ++ (plan queries ++ ([] ++ [])) := by simp
  rw [framed]
  exact .bind (.report _) fun _ => submitted.bind fun _ => .bind (.report _) fun _ => .pure _

end Executor

namespace Benchmark

variable {backend : Backend σ}

def settingCalls (config : BenchmarkConfig) : List StoreCall :=
  config.sessionSettings.map fun setting => .applySetting setting.1 setting.2

def queryCalls (config : BenchmarkConfig) (queries : VectorBatch) (threshold : Binary32) :
    List StoreCall :=
  config.strategies.flatMap fun strategy =>
    (List.range queries.count).map fun index => .submit {
      index := index
      strategy := strategy
      kind := .range threshold
      vector := queries.row index }

theorem queryCalls_eq (config : BenchmarkConfig) (queries : VectorBatch) (threshold : Binary32) :
    queryCalls config queries threshold = config.strategies.flatMap fun strategy =>
      Executor.plan (Query.rangeQueries queries threshold strategy) := by
  simp only [queryCalls, Executor.plan, Query.rangeQueries_eq_map, List.map_map]
  rfl

/-- What a store is to be asked between its connect and its close. -/
def plan (config : BenchmarkConfig) (queries : VectorBatch) (threshold : Binary32) :
    List StoreCall :=
  settingCalls config ++ queryCalls config queries threshold

theorem close_not_mem_plan (config : BenchmarkConfig) (queries : VectorBatch)
    (threshold : Binary32) : StoreCall.close ∉ plan config queries threshold := by
  simp [plan, settingCalls, queryCalls]

def recorded (benchmark : Benchmark σ) : Benchmark (σ × List StoreCall) where
  config := benchmark.config
  backend := benchmark.backend.recorded
  clock := benchmark.clock
  heedsStop := benchmark.heedsStop

@[simp] theorem recorded_config (benchmark : Benchmark σ) :
    benchmark.recorded.config = benchmark.config := rfl

theorem settings_carriesOut (heedsStop : Bool) (config : BenchmarkConfig) :
    CarriesOut backend heedsStop (do
      let _ ← Activity.forAll (Session.applySetting backend.recorded) config.sessionSettings
      return ()) (settingCalls config) := by
  have flat : settingCalls config =
      (config.sessionSettings.flatMap fun setting =>
        [StoreCall.applySetting setting.1 setting.2]) ++ [] := by
    rw [List.append_nil, settingCalls, List.map_eq_flatMap]
  rw [flat]
  exact .bind (.forAll Session.applySetting_carriesOut _) fun _ => .pure _

theorem strategies_carriesOut (benchmark : Benchmark σ) (queries : VectorBatch)
    (threshold : Binary32) :
    CarriesOut benchmark.backend benchmark.heedsStop
      (Activity.forAll (benchmark.recorded.runStrategy queries threshold)
        benchmark.config.strategies)
      (queryCalls benchmark.config queries threshold) := by
  rw [queryCalls_eq]
  refine .forAll (fun strategy => ?_) _
  have ran : CarriesOut benchmark.backend benchmark.heedsStop
      (benchmark.recorded.runStrategy queries threshold strategy)
      (Executor.plan (Query.rangeQueries queries threshold strategy) ++ []) :=
    .bind (Executor.run_carriesOut benchmark.recorded.executor rfl
      fun _ => Query.strategyOf_numbered) fun _ => .pure _
  rwa [List.append_nil] at ran

theorem runStrategies_calls (benchmark : Benchmark σ) (queries : VectorBatch)
    (threshold : Binary32) (environment : Environment (σ × List StoreCall)) :
    (benchmark.recorded.runStrategies queries threshold environment).2.store.2 =
      environment.store.2 ++ .connect benchmark.config.target ::
        match benchmark.backend.connect benchmark.config.target environment.store.1 with
        | (.error _, _) => []
        | (.ok (), opened) =>
            (benchmark.backend.carryOut benchmark.heedsStop
              (plan benchmark.config queries threshold) opened).calls ++ [.close] := by
  have connects : CarriesOut benchmark.backend false
      (Session.connect benchmark.recorded.backend benchmark.config.target)
      [.connect benchmark.config.target] := Session.connect_carriesOut _
  unfold runStrategies Session.start
  rw [Activity.bind_assoc, recorded_config]
  rcases reply : benchmark.backend.connect benchmark.config.target environment.store.1 with
    ⟨error | _, opened⟩
  · have refused : benchmark.backend.carryOut false [.connect benchmark.config.target]
        environment.store.1 =
        { calls := [.connect benchmark.config.target], state := opened, complete := false } := by
      simp [Backend.carryOut, Backend.perform, reply, Except.isOk, Except.toBool]
    rcases connects.run_error (by rw [refused]) with ⟨failure, next, run, calls⟩
    rw [Activity.bind_run_error run, calls, refused]
  · have accepted : benchmark.backend.carryOut false [.connect benchmark.config.target]
        environment.store.1 =
        { calls := [.connect benchmark.config.target], state := opened, complete := true } := by
      simp [Backend.carryOut, Backend.perform, reply, Except.isOk, Except.toBool]
    rcases connects.run_ok (by rw [accepted]) with ⟨_, next, run, store⟩
    rw [accepted] at store
    rw [Activity.bind_run_ok run]
    dsimp only
    rw [Activity.bind_assoc]
    have isOpen : Session.closed {} = false := rfl
    refine (Session.enclosed_calls isOpen (settings_carriesOut _ benchmark.config)
      (strategies_carriesOut benchmark queries threshold) next).trans ?_
    simp [store, plan]

/-- The calls that a store receives when the benchmark runs over a batch and its true neighbors
in an environment. -/
def storeCalls (benchmark : Benchmark σ) (queries : VectorBatch) (truth : GroundTruth)
    (environment : Environment σ) : List StoreCall :=
  (benchmark.recorded.runWith queries truth {
    store := (environment.store, [])
    files := environment.files
    log := environment.log }).2.store.2

theorem storeCalls_of_invalid {benchmark : Benchmark σ} {cause : ConfigError}
    (invalid : benchmark.config.validateExecution = .error cause) (queries : VectorBatch)
    (truth : GroundTruth) (environment : Environment σ) :
    benchmark.storeCalls queries truth environment = [] := by
  have invalidRecorded : benchmark.recorded.config.validateExecution = .error cause := invalid
  rw [storeCalls, runWith_of_invalid invalidRecorded]

theorem storeCalls_of_misaligned {benchmark : Benchmark σ} {queries : VectorBatch}
    {truth : GroundTruth} (valid : benchmark.config.validateExecution = .ok ())
    (misaligned : queries.count ≠ truth.queryCount) (environment : Environment σ) :
    benchmark.storeCalls queries truth environment = [] := by
  have validRecorded : benchmark.recorded.config.validateExecution = .ok () := valid
  rw [storeCalls, runWith_of_valid validRecorded, if_pos misaligned]

theorem storeCalls_of_aligned {benchmark : Benchmark σ} {queries : VectorBatch}
    {truth : GroundTruth} (valid : benchmark.config.validateExecution = .ok ())
    (aligned : queries.count = truth.queryCount) (environment : Environment σ) :
    benchmark.storeCalls queries truth environment =
      .connect benchmark.config.target ::
        match benchmark.backend.connect benchmark.config.target environment.store with
        | (.error _, _) => []
        | (.ok (), opened) =>
            (benchmark.backend.carryOut benchmark.heedsStop
              (plan benchmark.config queries truth.threshold) opened).calls ++ [.close] := by
  have validRecorded : benchmark.recorded.config.validateExecution = .ok () := valid
  rw [storeCalls, runWith_of_valid validRecorded, if_neg (fun differ => differ aligned)]
  have kept := LeavesStore.store_bind
    (gradeAndSave_leavesStore benchmark.recorded.config queries truth)
    (benchmark.recorded.runStrategies queries truth.threshold) {
      store := (environment.store, []), files := environment.files, log := environment.log }
  refine (congrArg Prod.snd kept).trans ?_
  rw [runStrategies_calls, List.nil_append]

/-- The calls that a store receives, for every configuration, store, moment of a stop request,
batch and ground truth: none without a valid configuration and a ground truth for the batch,
otherwise one connect, and if that succeeds what can be carried out of the plan and one close
at the end. -/
theorem storeCalls_shape (benchmark : Benchmark σ) (queries : VectorBatch)
    (truth : GroundTruth) (environment : Environment σ) :
    let config := benchmark.config
    let calls := benchmark.storeCalls queries truth environment
    match config.validateExecution with
    | .error _ => calls = []
    | .ok () =>
        if queries.count ≠ truth.queryCount then calls = []
        else
          match benchmark.backend.connect config.target environment.store with
          | (.error _, _) => calls = [.connect config.target]
          | (.ok (), opened) =>
              let planned := plan config queries truth.threshold
              let made := (benchmark.backend.carryOut benchmark.heedsStop planned opened).calls
              calls = .connect config.target :: (made ++ [.close]) ∧
                made <+: planned ∧ .close ∉ made := by
  intro config calls
  rcases validity : config.validateExecution with cause | _
  · exact storeCalls_of_invalid validity queries truth environment
  · by_cases aligned : queries.count = truth.queryCount
    · have shape := storeCalls_of_aligned validity aligned environment
      rw [if_neg (fun differ => differ aligned)]
      rcases reply : benchmark.backend.connect config.target environment.store with
        ⟨error | _, opened⟩
      · rw [reply] at shape
        exact shape
      · rw [reply] at shape
        have made := benchmark.backend.carryOut_prefix benchmark.heedsStop
          (plan config queries truth.threshold) opened
        exact ⟨shape, made, fun member =>
          close_not_mem_plan config queries truth.threshold (made.subset member)⟩
    · rw [if_pos aligned]
      exact storeCalls_of_misaligned validity aligned environment

end Benchmark

end RangeRecall
