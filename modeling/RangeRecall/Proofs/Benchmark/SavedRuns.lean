import RangeRecall.Proofs.Benchmark.AllOrNothing
import RangeRecall.Proofs.Files.Content
import RangeRecall.Proofs.Store.AnswerSize

/-! Saved runs. After a benchmark that succeeded, the file of every strategy holds the very run that
the report on this strategy was made from, so the report can be made again from the file. -/

namespace RangeRecall

/-! ## Files of one directory -/

namespace FileTree

variable {tree next last : FileTree} {directory name : String} {content : List UInt8}
  {files : List (String × List UInt8)}

def saveIn (directory : String) (file : String × List UInt8) (tree : FileTree) :
    Except Error Unit × FileTree :=
  tree.orUnchanged (tree.save (PathText.entryIn directory file.1) file.2)

theorem orUnchanged_eq_ok_iff {change : Except ε FileTree} :
    tree.orUnchanged change = (.ok (), next) ↔ change = .ok next := by
  cases change <;> simp [orUnchanged]

theorem saveIn_eq_ok_iff {file : String × List UInt8} :
    saveIn directory file tree = (.ok (), next) ↔
      tree.write (PathText.entryIn directory file.1) file.2 = .ok next :=
  orUnchanged_eq_ok_iff.trans save_eq_ok_iff

theorem changeAll_cons_eq_ok {change : FileTree → Except Error Unit × FileTree}
    {rest : List (FileTree → Except Error Unit × FileTree)} :
    tree.changeAll (change :: rest) = (.ok (), last) ↔
      ∃ next, change tree = (.ok (), next) ∧ next.changeAll rest = (.ok (), last) := by
  rw [changeAll]
  rcases change tree with ⟨cause | _, next⟩
  · constructor
    · intro failed
      cases failed
    · rintro ⟨_, same, _⟩
      cases same
  · constructor
    · intro later
      exact ⟨next, rfl, later⟩
    · rintro ⟨_, same, later⟩
      cases same
      exact later

theorem load_of_saved_beside (isName : PathText.IsEntryName name)
    (names : ∀ file ∈ files, PathText.IsEntryName file.1) (absent : name ∉ files.map Prod.fst)
    (held : tree.load (PathText.entryIn directory name) = .ok content)
    (saved : tree.changeAll (files.map (saveIn directory)) = (.ok (), last)) :
    last.load (PathText.entryIn directory name) = .ok content := by
  induction files generalizing tree with
  | nil =>
      cases saved
      exact held
  | cons file rest induction =>
      rw [List.map_cons] at saved absent
      rcases changeAll_cons_eq_ok.mp saved with ⟨next, written, later⟩
      have others := List.forall_mem_cons.mp names
      have differ := List.ne_and_not_mem_of_not_mem_cons absent
      refine induction others.2 differ.2 (load_eq_ok_iff.mpr ?_) later
      exact read_write_of_ne (saveIn_eq_ok_iff.mp written) (load_eq_ok_iff.mp held)
        fun place located => locate_entryIn_ne others.1 isName differ.1.symm located

theorem load_of_saved (names : ∀ file ∈ files, PathText.IsEntryName file.1)
    (distinct : (files.map Prod.fst).Nodup)
    (saved : tree.changeAll (files.map (saveIn directory)) = (.ok (), last)) :
    ∀ file ∈ files, last.load (PathText.entryIn directory file.1) = .ok file.2 := by
  induction files generalizing tree with
  | nil => exact fun _ member => absurd member List.not_mem_nil
  | cons file rest induction =>
      rw [List.map_cons] at saved distinct
      rcases changeAll_cons_eq_ok.mp saved with ⟨next, written, later⟩
      have others := List.forall_mem_cons.mp names
      have apart := List.nodup_cons.mp distinct
      exact List.forall_mem_cons.mpr
        ⟨load_of_saved_beside others.1 others.2 apart.1
            (load_save (orUnchanged_eq_ok_iff.mp written)) later,
          induction others.2 apart.2 later⟩

theorem changeAll_of_savable
    (savable : ∀ file ∈ files, ∃ reached, saveIn directory file tree = (.ok (), reached)) :
    ∃ last, tree.changeAll (files.map (saveIn directory)) = (.ok (), last) := by
  induction files generalizing tree with
  | nil => exact ⟨tree, rfl⟩
  | cons file rest induction =>
      rcases List.forall_mem_cons.mp savable with ⟨⟨next, written⟩, others⟩
      have later : ∀ other ∈ rest, ∃ reached,
          saveIn directory other next = (.ok (), reached) := by
        intro other member
        rcases others other member with ⟨_, writable⟩
        rcases write_after_write (saveIn_eq_ok_iff.mp written) (saveIn_eq_ok_iff.mp writable) with
          ⟨reached, writtenLater⟩
        exact ⟨reached, saveIn_eq_ok_iff.mpr writtenLater⟩
      rcases induction later with ⟨last, saved⟩
      exact ⟨last, changeAll_cons_eq_ok.mpr ⟨next, written, saved⟩⟩

end FileTree

theorem RecallEvaluator.strategy_of_evaluate {evaluator : RecallEvaluator} {run : ExecutionRun}
    {report : RecallReport} (evaluated : evaluator.evaluate run = .ok report) :
    report.strategy = run.strategy := by
  rcases Failure.bind_eq_ok_iff.mp evaluated with ⟨recalls, _, same⟩
  cases same
  rfl

namespace Benchmark

/-! ## The files of the results -/

def savedFiles (runs : List ExecutionRun) (outcome : BenchmarkOutcome) :
    List (String × List UInt8) :=
  runs.map (fun run => (runFile run, ResultFile.ofRun run)) ++
    [(outcomeFile, Json.render outcome)]

theorem resultFiles_eq (directory : String) (runs : List ExecutionRun)
    (outcome : BenchmarkOutcome) :
    resultFiles directory runs outcome =
      (fun tree => tree.prepareDirectory directory) ::
        (savedFiles runs outcome).map (FileTree.saveIn directory) := by
  rw [resultFiles, savedFiles, List.map_append, List.map_map]
  rfl

def resultNames : List String :=
  ["sequential-scan.rbr", "index-scan.rbr", outcomeFile]

theorem mem_resultNames (runs : List ExecutionRun) (outcome : BenchmarkOutcome) :
    ∀ file ∈ savedFiles runs outcome, file.1 ∈ resultNames := by
  intro file member
  rcases List.mem_append.mp member with ofRun | last
  · rcases List.mem_map.mp ofRun with ⟨run, _, rfl⟩
    change run.strategy.name ++ ".rbr" ∈ resultNames
    cases run.strategy <;> decide
  · rw [List.mem_singleton.mp last]
    change outcomeFile ∈ resultNames
    decide

theorem isEntryName_of_mem_resultNames {name : String} (member : name ∈ resultNames) :
    PathText.IsEntryName name where
  notEmpty := (by decide : ∀ name ∈ resultNames, name ≠ "") name member
  noSlash := (by decide : ∀ name ∈ resultNames, '/' ∉ name.toList) name member
  notSame := (by decide : ∀ name ∈ resultNames, name ≠ PathText.sameDirectory) name member
  notAbove := (by decide : ∀ name ∈ resultNames, name ≠ PathText.directoryAbove) name member

theorem strategy_eq_of_runFile {run other : ExecutionRun} (same : runFile run = runFile other) :
    run.strategy = other.strategy := by
  revert same
  unfold runFile
  cases run.strategy <;> cases other.strategy <;> decide

theorem runFile_ne_outcomeFile (run : ExecutionRun) : runFile run ≠ outcomeFile := by
  unfold runFile
  cases run.strategy <;> decide

theorem nodup_savedFiles {runs : List ExecutionRun}
    (distinct : (runs.map ExecutionRun.strategy).Nodup) (outcome : BenchmarkOutcome) :
    ((savedFiles runs outcome).map Prod.fst).Nodup := by
  have names : (savedFiles runs outcome).map Prod.fst = runs.map runFile ++ [outcomeFile] := by
    rw [savedFiles, List.map_append, List.map_map]
    rfl
  have apart : (runs.map runFile).Nodup :=
    List.pairwise_map.mpr ((List.pairwise_map.mp distinct).imp fun differ same =>
      differ (strategy_eq_of_runFile same))
  rw [names, List.nodup_append]
  refine ⟨apart, List.nodup_singleton _, ?_⟩
  intro name member other last
  rcases List.mem_map.mp member with ⟨run, _, rfl⟩
  rw [List.mem_singleton.mp last]
  exact runFile_ne_outcomeFile run

theorem loadRun_of_saved {runs : List ExecutionRun} {outcome : BenchmarkOutcome}
    {directory : String} {tree last : FileTree}
    (distinct : (runs.map ExecutionRun.strategy).Nodup)
    (inWords : ∀ run ∈ runs, run.InWords)
    (saved : tree.changeAll (resultFiles directory runs outcome) = (.ok (), last)) :
    ∀ run ∈ runs, last.loadRun (PathText.entryIn directory (runFile run)) = .ok run := by
  intro run member
  rw [resultFiles_eq] at saved
  rcases FileTree.changeAll_cons_eq_ok.mp saved with ⟨prepared, _, written⟩
  have names : ∀ file ∈ savedFiles runs outcome, PathText.IsEntryName file.1 :=
    fun file saved => isEntryName_of_mem_resultNames (mem_resultNames runs outcome file saved)
  have held := FileTree.load_of_saved names (nodup_savedFiles distinct outcome) written
    (runFile run, ResultFile.ofRun run) (List.mem_append_left _ (List.mem_map_of_mem member))
  exact (FileTree.holdsRun_of_load (inWords run member) held).run

/-! ## Benchmarks that succeeded -/

variable {benchmark : Benchmark σ} {queries : VectorBatch} {threshold : Binary32}
  {truth : GroundTruth} {environment last : Environment σ} {outcome : BenchmarkOutcome}
  {evaluator : RecallEvaluator} {runs : List ExecutionRun}

theorem report_of_grade {begun : BenchmarkOutcome}
    (distinct : (runs.map ExecutionRun.strategy).Nodup)
    (graded : grade evaluator runs begun = .ok outcome) :
    (∀ run ∈ runs, ∃ report, evaluator.evaluate run = .ok report ∧
        outcome.report? run.strategy = some report) ∧
      ∀ strategy ∉ runs.map ExecutionRun.strategy,
        outcome.report? strategy = begun.report? strategy := by
  induction runs generalizing begun with
  | nil =>
      cases graded
      exact ⟨fun _ member => absurd member List.not_mem_nil, fun _ _ => rfl⟩
  | cons run rest induction =>
      rw [List.map_cons, List.nodup_cons] at distinct
      rcases Failure.bind_eq_ok_iff.mp graded with ⟨report, evaluated, later⟩
      rcases induction distinct.2 later with ⟨reports, others⟩
      have label : report.strategy = run.strategy := RecallEvaluator.strategy_of_evaluate evaluated
      constructor
      · refine List.forall_mem_cons.mpr ⟨⟨report, evaluated, ?_⟩, reports⟩
        rw [others _ distinct.1, BenchmarkOutcome.report?_withReport, if_pos label.symm]
      · intro strategy absent
        have differ := List.ne_and_not_mem_of_not_mem_cons absent
        rw [others _ differ.2, BenchmarkOutcome.report?_withReport,
          if_neg (fun same => differ.1 (same.trans label))]

theorem gradeAndSave_eq_ok {config : BenchmarkConfig} {directory : String}
    (saves : config.resultsDirectory = some directory)
    (ran : gradeAndSave config queries truth runs environment = (.ok outcome, last)) :
    grade (Benchmark.evaluator config truth) runs
        { threshold := truth.threshold, queryCount := queries.count } = .ok outcome ∧
      environment.files.changeAll (resultFiles directory runs outcome) =
        (.ok (), last.files) := by
  rcases graded : grade (Benchmark.evaluator config truth) runs
      { threshold := truth.threshold, queryCount := queries.count } with failure | final
  · have attempted := Activity.ofAttempt_run (grade (Benchmark.evaluator config truth) runs
      { threshold := truth.threshold, queryCount := queries.count }) environment
    rw [graded] at attempted
    rw [gradeAndSave, graded, Activity.bind_run_error attempted] at ran
    cases ran
  · rw [gradeAndSave_of_graded graded, saves] at ran
    rcases saved : environment.files.changeAll (resultFiles directory runs final) with
      ⟨cause | _, files⟩
    · simp only [saved] at ran
      cases ran
    · simp only [saved] at ran
      cases ran
      exact ⟨rfl, saved⟩

theorem runWith_eq_ok {directory : String}
    (saves : benchmark.config.resultsDirectory = some directory)
    (ran : benchmark.runWith queries truth environment = (.ok outcome, last)) :
    benchmark.config.validateExecution = .ok () ∧ queries.count = truth.queryCount ∧
      ∃ runs middle,
        benchmark.runStrategies queries truth.threshold environment = (.ok runs, middle) ∧
        grade (Benchmark.evaluator benchmark.config truth) runs
          { threshold := truth.threshold, queryCount := queries.count } = .ok outcome ∧
        middle.files.changeAll (resultFiles directory runs outcome) = (.ok (), last.files) := by
  rcases valid : benchmark.config.validateExecution with cause | _
  · rw [runWith_of_invalid valid] at ran
    cases ran
  · rw [runWith_of_valid valid] at ran
    split at ran
    · cases ran
    · rename_i aligned
      rcases reply : benchmark.runStrategies queries truth.threshold environment with
        ⟨failure | runs, middle⟩
      · rw [Activity.bind_run_error reply] at ran
        cases ran
      · rw [Activity.bind_run_ok reply] at ran
        exact ⟨rfl, Decidable.not_not.mp aligned, runs, middle, rfl, gradeAndSave_eq_ok saves ran⟩

theorem runStrategies_ensures {steady : σ → Prop}
    (fits : benchmark.backend.AnswersFit steady) :
    Activity.Ensures steady (benchmark.runStrategies queries threshold)
      fun runs => ∀ run ∈ runs, run.AnswersFit := by
  have each (strategy : ScanStrategy) : Activity.Ensures steady
      (benchmark.runStrategy queries threshold strategy) ExecutionRun.AnswersFit :=
    .bind (Executor.run_ensures fits fun _ => Query.strategyOf_numbered) fun _ fit => .pure fit
  refine .bind (Session.start_ensures fits _ _) fun _ _ => ?_
  refine .bind (Session.dropOnFailure_ensures (.forAll each _)) fun runs fit => ?_
  exact .bind (Session.finish_ensures fits) fun _ _ => .pure fit

theorem runsAll_of_runStrategies {middle : Environment σ}
    (ran : benchmark.runStrategies queries threshold environment = (.ok runs, middle)) :
    List.Forall₂ (RunsAll queries) benchmark.config.strategies runs := by
  rcases runStrategies_follows benchmark queries threshold environment with ⟨_, _, ending⟩
  split at ending
  · rw [ran] at ending
    cases ending
  · rcases ending with ⟨_, found, same, all⟩
    rw [ran] at same
    cases same
    exact all

theorem inWords_of_runsAll {strategies : List ScanStrategy}
    (all : List.Forall₂ (RunsAll queries) strategies runs) (words : queries.count < wordLimit)
    (fits : ∀ run ∈ runs, run.AnswersFit) : ∀ run ∈ runs, run.InWords := by
  intro run member
  have aligned := aligned_of_runsAll all run member
  refine ⟨aligned.1 ▸ words, fun record recordMember => ⟨?_, fits run member record recordMember⟩⟩
  rcases List.getElem?_of_mem recordMember with ⟨position, found⟩
  rw [aligned.2 position record found]
  exact Nat.lt_trans (aligned.1 ▸ (List.getElem?_eq_some_iff.mp found).1) words

/-- After a benchmark that saved its results, the file of every strategy is loaded as a run of this
strategy with one record for each query, in order, and grading it makes exactly the report that
the outcome has on the strategy. -/
theorem saved_runs_graded_again {steady : σ → Prop} {directory : String}
    (fits : benchmark.backend.AnswersFit steady) (begun : steady environment.store)
    (words : queries.count < wordLimit)
    (saves : benchmark.config.resultsDirectory = some directory)
    (ran : benchmark.runWith queries truth environment = (.ok outcome, last)) :
    queries.count = truth.queryCount ∧
      ∀ strategy ∈ benchmark.config.strategies, ∃ run report,
        last.files.loadRun (PathText.entryIn directory (strategy.name ++ ".rbr")) = .ok run ∧
          run.strategy = strategy ∧ run.records.length = queries.count ∧ run.InOrder ∧
          (Benchmark.evaluator benchmark.config truth).evaluate run = .ok report ∧
          outcome.report? strategy = some report := by
  rcases runWith_eq_ok saves ran with ⟨valid, aligned, runs, middle, session, graded, saved⟩
  have all := runsAll_of_runStrategies session
  have labels := map_strategy_of_runsAll all
  have distinct : (runs.map ExecutionRun.strategy).Nodup :=
    labels ▸ BenchmarkConfig.nodup_strategies valid
  have answers := (runStrategies_ensures fits environment runs middle begun session).1
  have loaded := loadRun_of_saved distinct (inWords_of_runsAll all words answers) saved
  have reports := (report_of_grade distinct graded).1
  refine ⟨aligned, fun strategy configured => ?_⟩
  rw [← labels] at configured
  rcases List.mem_map.mp configured with ⟨run, member, rfl⟩
  rcases reports run member with ⟨report, evaluated, reported⟩
  have complete := aligned_of_runsAll all run member
  exact ⟨run, report, loaded run member, rfl, complete.1, complete.2, evaluated, reported⟩

def saving : BenchmarkConfig :=
  { resultsDirectory := some "results" }

def resultsPlace : Place :=
  (Place.start false).entry "results"

theorem savable_in_results (runs : List ExecutionRun) (outcome : BenchmarkOutcome) :
    ∃ files, ({} : FileTree).changeAll (resultFiles "results" runs outcome) = (.ok (), files) := by
  have created : ({} : FileTree).createDirectories "results" =
      (.ok (), FileTree.put {} resultsPlace .directory) := by
    decide +kernel
  have prepared : ({} : FileTree).prepareDirectory "results" =
      (.ok (), FileTree.put {} resultsPlace .directory) := by
    rw [FileTree.prepareDirectory, created]
    rfl
  have free : ∀ name ∈ resultNames,
      FileTree.locate (FileTree.put {} resultsPlace .directory)
          (PathText.entryIn "results" name) = .ok (resultsPlace.entry name) ∧
        PathText.endsInSlash (PathText.entryIn "results" name) = false ∧
        FileTree.entryAt? (FileTree.put {} resultsPlace .directory) (resultsPlace.entry name) ≠
          some .directory := by
    decide +kernel
  have savable : ∀ file ∈ savedFiles runs outcome, ∃ reached,
      FileTree.saveIn "results" file (FileTree.put {} resultsPlace .directory) =
        (.ok (), reached) := by
    intro file member
    rcases free file.1 (mem_resultNames runs outcome file member) with
      ⟨located, noSlash, noDirectory⟩
    exact ⟨_, FileTree.saveIn_eq_ok_iff.mpr (FileTree.write_eq_ok_iff.mpr
      ⟨_, located, noSlash, noDirectory, rfl⟩)⟩
  rcases FileTree.changeAll_of_savable savable with ⟨last, saved⟩
  refine ⟨last, ?_⟩
  rw [resultFiles_eq]
  exact FileTree.changeAll_cons_eq_ok.mpr ⟨_, prepared, saved⟩

theorem one_query_graded_again :
    ∃ outcome last,
      (inMemory saving Clock.still false).runWith (onLine [⟨0⟩]) firstRowOnly {
        store := MemoryHost.ofStore (MemoryStore.numberedFrom 1 (onLine [⟨0⟩])) } =
          (.ok outcome, last) ∧
        ∀ strategy ∈ ScanStrategy.all, ∃ run report,
          last.files.loadRun (PathText.entryIn "results" (strategy.name ++ ".rbr")) = .ok run ∧
            run.strategy = strategy ∧ run.records.length = 1 ∧ run.InOrder ∧
            (Benchmark.evaluator saving firstRowOnly).evaluate run = .ok report ∧
            outcome.report? strategy = some report := by
  have fits : ∀ neighbor ∈ firstRowOnly.neighborIds,
      (neighbor.toNat : Int) + saving.idOffset.shift.toInt < signedLimit := by
    intro neighbor _
    have shift : saving.idOffset.shift.toInt = 1 := by decide
    have bound := neighbor.toNat_lt
    simp only [shift, signedLimit]
    omega
  have answered : MemoryHost.backend.firstFailure? false
      (sessionCalls saving (onLine [⟨0⟩]) firstRowOnly.threshold)
      (MemoryHost.ofStore (MemoryStore.numberedFrom 1 (onLine [⟨0⟩]))) = none := by
    decide +kernel
  rcases @runWith_of_success _ (inMemory saving Clock.still false) (onLine [⟨0⟩]) firstRowOnly {
      store := MemoryHost.ofStore (MemoryStore.numberedFrom 1 (onLine [⟨0⟩])) }
      fits rfl rfl answered with ⟨runs, outcome, last, _, _, _, ran⟩
  rcases savable_in_results runs outcome with ⟨files, saved⟩
  have succeeded : (inMemory saving Clock.still false).runWith (onLine [⟨0⟩]) firstRowOnly {
      store := MemoryHost.ofStore (MemoryStore.numberedFrom 1 (onLine [⟨0⟩])) } =
        (.ok outcome, { last with files := files }) := by
    rw [ran]
    simp only [inMemory, saving, saved]
    rfl
  exact ⟨outcome, _, succeeded,
    (saved_runs_graded_again MemoryHost.answersFit ⟨by decide, by decide⟩ (by decide) rfl
      succeeded).2⟩

end Benchmark

end RangeRecall
