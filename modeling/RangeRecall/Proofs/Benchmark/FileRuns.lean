import RangeRecall.Proofs.Benchmark.StoreCalls
import RangeRecall.Proofs.Files.Inputs
import RangeRecall.Store.Memory

/-! Benchmarks over files and over data in memory. Files are only loaded before the store is
contacted, and what has been saved is loaded bit for bit, so nothing of what follows can tell where
the queries and the ground truth come from. -/

namespace RangeRecall

open Activity (IgnoresFiles)

/-! ## Sessions and runs do not look at the files -/

namespace Session

theorem dropOnFailure_ignoresFiles (backend : Backend σ) (session : Session)
    {activity : Activity σ α} (ignores : IgnoresFiles activity) :
    IgnoresFiles (dropOnFailure backend session activity) := by
  intro environment files
  have elsewhere := ignores environment files
  unfold dropOnFailure
  rcases run : activity environment with ⟨failure | value, next⟩
  · rw [run] at elsewhere
    simp only [elsewhere, drop]
    split
    · rfl
    · rcases backend.close next.store with ⟨error | _, store⟩ <;> rfl
  · rw [run] at elsewhere
    simp only [elsewhere]

theorem start_ignoresFiles (backend : Backend σ) (target : SqlTarget)
    (settings : List (String × String)) : IgnoresFiles (start backend target settings) := by
  refine .bind (.bind (.report _) fun _ => .call _ _) fun _ => ?_
  refine .bind (dropOnFailure_ignoresFiles backend {}
    (.bind (.forAll ?_ settings) fun _ => .pure ())) fun _ => .pure _
  exact fun _ => .bind (.report _) fun _ => .call _ _

end Session

namespace Executor

variable (executor : Executor σ)

theorem checkStop_ignoresFiles (completed : Nat) : IgnoresFiles (executor.checkStop completed) := by
  intro environment files
  unfold checkStop
  dsimp only
  split <;> rfl

theorem reportProgress_ignoresFiles (strategy : ScanStrategy) (position total : Nat) :
    IgnoresFiles (executor.reportProgress strategy position total) := by
  unfold reportProgress
  split
  · exact .report _
  · exact .pure ()

theorem executeFrom_ignoresFiles (strategy : ScanStrategy) (total : Nat) (queries : List Query)
    (position : Nat) : IgnoresFiles (executor.executeFrom strategy total position queries) := by
  induction queries generalizing position with
  | nil => exact .pure []
  | cons query rest induction =>
      refine .bind (executor.checkStop_ignoresFiles position) fun _ => ?_
      refine .bind (.bind (.call _ _) fun _ => .pure _) fun _ => ?_
      refine .bind (executor.reportProgress_ignoresFiles strategy position total) fun _ => ?_
      exact .bind (induction (position + 1)) fun _ => .pure _

theorem run_ignoresFiles (queries : List Query) : IgnoresFiles (executor.run queries) := by
  unfold run
  dsimp only
  split
  · exact .fail _
  · refine .bind (.report _) fun _ => ?_
    refine .bind (executor.executeFrom_ignoresFiles _ _ queries 0) fun _ => ?_
    exact .bind (.report _) fun _ => .pure _

end Executor

theorem BenchmarkConfig.validateExecution_of_validate {config : BenchmarkConfig}
    (valid : config.validate = .ok ()) : config.validateExecution = .ok () := by
  unfold validate at valid
  split at valid
  · cases valid
  · split at valid
    · cases valid
    · exact valid

namespace Benchmark

variable {benchmark : Benchmark σ}

theorem runStrategies_ignoresFiles (benchmark : Benchmark σ) (queries : VectorBatch)
    (threshold : Binary32) : IgnoresFiles (benchmark.runStrategies queries threshold) := by
  refine .bind (Session.start_ignoresFiles _ _ _) fun session => ?_
  refine .bind (Session.dropOnFailure_ignoresFiles _ session
    (.forAll (fun strategy => ?_) _)) fun _ => ?_
  · exact .bind (benchmark.executor.run_ignoresFiles _) fun _ => .pure _
  · rw [Session.finish_eq_close]
    exact .bind (.call _ _) fun _ => .pure _

theorem runWith_ignoresFiles (unsaved : benchmark.config.resultsDirectory = none)
    (queries : VectorBatch) (truth : GroundTruth) :
    IgnoresFiles (benchmark.runWith queries truth) := by
  refine .bind (.ofAttempt _) fun _ => ?_
  split
  · exact .fail _
  · refine .bind (benchmark.runStrategies_ignoresFiles queries truth.threshold) fun runs => ?_
    refine .bind (.ofAttempt _) fun outcome => ?_
    rw [unsaved]
    exact .pure outcome

/-! ## Runs over files -/

/-- What is checked before the store is contacted: the configuration can run, there are queries in
its first file and a ground truth in its second, and the two have the same number of queries. -/
structure Ready (config : BenchmarkConfig) (files : FileTree) (queries : VectorBatch)
    (truth : GroundTruth) : Prop where
  valid : config.validate = .ok ()
  loaded : files.loadBatch config.queryPath true = .ok queries
  nonEmpty : 0 < queries.count ∧ 0 < queries.dimension
  loadedTruth : files.loadGroundTruth config.groundTruthPath = .ok truth
  aligned : queries.count = truth.queryCount

theorem run_eq (benchmark : Benchmark σ) (environment : Environment σ) :
    benchmark.run environment =
      match benchmark.config.validate with
      | .error cause => (.error (.error (.invalidConfig cause)), environment)
      | .ok () =>
          match environment.files.loadBatch benchmark.config.queryPath true with
          | .error error => (.error (.error error), environment)
          | .ok queries =>
              match environment.files.loadGroundTruth benchmark.config.groundTruthPath with
              | .error error => (.error (.error error), environment)
              | .ok truth => benchmark.runWith queries truth environment := by
  refine (Activity.ofResult_bind_run _ _ environment).trans ?_
  rcases benchmark.config.validate with cause | _
  · rfl
  · refine (Activity.readFiles_bind_run _ _ environment).trans ?_
    rcases environment.files.loadBatch benchmark.config.queryPath true with error | queries
    · rfl
    · refine (Activity.readFiles_bind_run _ _ environment).trans ?_
      rcases environment.files.loadGroundTruth benchmark.config.groundTruthPath with
        error | truth <;> rfl

theorem run_of_loaded {environment : Environment σ} {queries : VectorBatch} {truth : GroundTruth}
    (valid : benchmark.config.validate = .ok ())
    (loaded : environment.files.loadBatch benchmark.config.queryPath true = .ok queries)
    (loadedTruth :
      environment.files.loadGroundTruth benchmark.config.groundTruthPath = .ok truth) :
    benchmark.run environment = benchmark.runWith queries truth environment := by
  rw [run_eq, valid]
  dsimp only
  rw [loaded]
  dsimp only
  rw [loadedTruth]

theorem run_of_not_ready {environment : Environment σ}
    (notReady : ¬∃ queries truth, Ready benchmark.config environment.files queries truth) :
    ∃ failure, benchmark.run environment = (.error failure, environment) := by
  rw [run_eq]
  rcases validity : benchmark.config.validate with cause | _
  · exact ⟨_, rfl⟩
  · rcases loaded : environment.files.loadBatch benchmark.config.queryPath true with
      error | queries
    · exact ⟨_, rfl⟩
    · rcases loadedTruth :
          environment.files.loadGroundTruth benchmark.config.groundTruthPath with error | truth
      · exact ⟨_, rfl⟩
      · have nonEmpty : 0 < queries.count ∧ 0 < queries.dimension := by
          rcases FileTree.loadBatch_eq_ok_iff.mp loaded with ⟨_, _, _, nonEmpty⟩
          exact nonEmpty rfl
        have misaligned : queries.count ≠ truth.queryCount := fun aligned =>
          notReady ⟨queries, truth, validity, loaded, nonEmpty, loadedTruth, aligned⟩
        refine ⟨.error (.alignment queries.count truth.queryCount), ?_⟩
        dsimp only
        rw [runWith_of_valid (BenchmarkConfig.validateExecution_of_validate validity),
          if_pos misaligned]

/-- The calls that a store receives when the benchmark runs over its files in an environment. -/
def fileCalls (benchmark : Benchmark σ) (environment : Environment σ) : List StoreCall :=
  (benchmark.recorded.run {
    store := (environment.store, [])
    files := environment.files
    log := environment.log }).2.store.2

theorem fileCalls_of_loaded {environment : Environment σ} {queries : VectorBatch}
    {truth : GroundTruth} (valid : benchmark.config.validate = .ok ())
    (loaded : environment.files.loadBatch benchmark.config.queryPath true = .ok queries)
    (loadedTruth :
      environment.files.loadGroundTruth benchmark.config.groundTruthPath = .ok truth) :
    benchmark.fileCalls environment = benchmark.storeCalls queries truth environment := by
  have recorded := @run_of_loaded _ benchmark.recorded {
    store := (environment.store, [])
    files := environment.files
    log := environment.log } _ _ valid loaded loadedTruth
  rw [fileCalls, recorded]
  rfl

theorem fileCalls_of_not_ready {environment : Environment σ}
    (notReady : ¬∃ queries truth, Ready benchmark.config environment.files queries truth) :
    benchmark.fileCalls environment = [] := by
  have recorded := @run_of_not_ready _ benchmark.recorded {
    store := (environment.store, [])
    files := environment.files
    log := environment.log } notReady
  rcases recorded with ⟨failure, ran⟩
  rw [fileCalls, ran]

theorem storeCalls_congr (valid : benchmark.config.validateExecution = .ok ())
    (queries : VectorBatch) (truth : GroundTruth) {environment other : Environment σ}
    (same : environment.store = other.store) :
    benchmark.storeCalls queries truth environment =
      benchmark.storeCalls queries truth other := by
  by_cases aligned : queries.count = truth.queryCount
  · rw [storeCalls_of_aligned valid aligned, storeCalls_of_aligned valid aligned, same]
  · rw [storeCalls_of_misaligned valid aligned, storeCalls_of_misaligned valid aligned]

/-- Queries and a ground truth that have been saved in the configured files are run over as they
are in memory: with the same calls, the same answer and the same traces. Whatever the files are,
the store is not contacted, and nothing else is touched, unless they are ready for the run. -/
theorem run_of_saved_inputs (benchmark : Benchmark σ) :
    (∀ (tree : FileTree) (queries : VectorBatch) (truth : GroundTruth),
      benchmark.config.validate = .ok () →
      tree.TakesBoth benchmark.config.queryPath benchmark.config.groundTruthPath →
      0 < queries.count → queries.count < fieldLimit → queries.dimension < fieldLimit →
      truth.queryCount < fieldLimit →
      ∃ withQueries files,
        tree.saveBatch benchmark.config.queryPath queries = (.ok (), withQueries) ∧
        withQueries.saveGroundTruth benchmark.config.groundTruthPath truth = (.ok (), files) ∧
        ∀ (store : σ) (log : List LogMessage),
          let saved : Environment σ := { store := store, files := files, log := log }
          benchmark.run saved = benchmark.runWith queries truth saved ∧
          ∀ other : FileTree,
            let elsewhere : Environment σ := { store := store, files := other, log := log }
            benchmark.fileCalls saved = benchmark.storeCalls queries truth elsewhere ∧
            (benchmark.config.resultsDirectory = none →
              benchmark.run saved = ((benchmark.runWith queries truth elsewhere).1,
                { (benchmark.runWith queries truth elsewhere).2 with files := files }))) ∧
    ∀ environment : Environment σ,
      (benchmark.fileCalls environment ≠ [] ↔
        ∃ queries truth, Ready benchmark.config environment.files queries truth) ∧
      ((¬∃ queries truth, Ready benchmark.config environment.files queries truth) →
        ∃ failure, benchmark.run environment = (.error failure, environment)) := by
  constructor
  · intro tree queries truth valid takes nonEmpty countFits dimensionFits queriesFit
    rcases FileTree.exists_saved_inputs takes countFits dimensionFits nonEmpty queriesFit with
      ⟨withQueries, files, savedQueries, savedTruth, loaded, loadedTruth⟩
    have executes := BenchmarkConfig.validateExecution_of_validate valid
    refine ⟨withQueries, files, savedQueries, savedTruth, fun store log => ?_⟩
    intro saved
    have ran : benchmark.run saved = benchmark.runWith queries truth saved :=
      run_of_loaded valid loaded loadedTruth
    have calls : benchmark.fileCalls saved = benchmark.storeCalls queries truth saved :=
      fileCalls_of_loaded valid loaded loadedTruth
    constructor
    · exact ran
    · intro other elsewhere
      constructor
      · rw [calls]
        exact storeCalls_congr executes queries truth rfl
      · intro unsaved
        rw [ran]
        exact runWith_ignoresFiles unsaved queries truth elsewhere files
  · intro environment
    refine ⟨⟨fun contacted => ?_, ?_⟩, run_of_not_ready⟩
    · exact Classical.byContradiction fun notReady =>
        contacted (fileCalls_of_not_ready notReady)
    · rintro ⟨queries, truth, ready⟩
      rw [fileCalls_of_loaded ready.valid ready.loaded ready.loadedTruth,
        storeCalls_of_aligned (BenchmarkConfig.validateExecution_of_validate ready.valid)
          ready.aligned]
      exact List.cons_ne_nil _ _

theorem two_queries_run_from_files :
    let benchmark : Benchmark MemoryHost := {
      config := { queryPath := "queries.bin", groundTruthPath := "truth.bin" }
      backend := MemoryHost.backend }
    ∃ files, ∀ store : MemoryHost,
      let saved : Environment MemoryHost := { store := store, files := files }
      benchmark.run saved = benchmark.runWith .twoVectors .oneNeighbor saved ∧
        benchmark.fileCalls saved ≠ [] := by
  intro benchmark
  have located : FileTree.locate {} "queries.bin" =
      .ok ((Place.start false).entry "queries.bin") := by decide +kernel
  have locatedTruth : FileTree.locate {} "truth.bin" =
      .ok ((Place.start false).entry "truth.bin") := by decide +kernel
  have takes : FileTree.TakesBoth {} "queries.bin" "truth.bin" := by
    constructor
    · exact ⟨_, FileTree.write_eq_ok_iff.mpr ⟨_, located, by decide, nofun, rfl⟩⟩
    · exact ⟨_, FileTree.write_eq_ok_iff.mpr ⟨_, locatedTruth, by decide, nofun, rfl⟩⟩
    · intro place first second
      rw [located] at first
      rw [locatedTruth, ← first] at second
      exact absurd (Except.ok.inj second) (by decide)
  have laws := run_of_saved_inputs benchmark
  rcases laws.1 {} .twoVectors .oneNeighbor (by decide) takes (by decide) (by decide) (by decide)
    (by decide) with ⟨_, files, _, _, same⟩
  refine ⟨files, fun store => ⟨(same store []).1, ?_⟩⟩
  rw [((same store []).2 {}).1, storeCalls_of_aligned (by decide) (by decide)]
  exact List.cons_ne_nil _ _

end Benchmark

end RangeRecall
