import RangeRecall.Proofs.Benchmark.SavedRuns
import RangeRecall.Proofs.Grade.ReportDocument

/-! Saved outcomes. After a benchmark that succeeded, the file of the outcome is read again if and
only if the threshold of the ground truth is finite: a document has no other numbers, and nothing
else in an outcome can fail to be read. -/

namespace RangeRecall

open Json

namespace BenchmarkOutcome

variable {outcome : BenchmarkOutcome} {threshold : Binary32} {count : Nat}
  {strategies : List ScanStrategy}

/-- The outcome is about so many queries at the threshold, and has reports on the strategies. -/
structure Covers (outcome : BenchmarkOutcome) (threshold : Binary32) (count : Nat)
    (strategies : List ScanStrategy) : Prop where
  threshold : outcome.threshold = threshold
  queryCount : outcome.queryCount = count
  reports : ∀ strategy, (outcome.report? strategy).map RecallReport.strategy =
    if strategy ∈ strategies then some strategy else none

/-! ## Documents of outcomes -/

theorem report_reads (report : Option RecallReport)
    (bounded : ∀ found, report = some found → found.IsBounded) :
    ∃ read : Option RecallReport,
      read.map RecallReport.strategy = report.map RecallReport.strategy ∧
      Reads (Reader.optional Document.reader) (reportValue report) read := by
  cases report with
  | none => exact ⟨none, rfl, optional_reads_null _⟩
  | some report =>
      obtain ⟨read, label, -, -, reads⟩ := RecallReport.document_reads (bounded report rfl)
      exact ⟨some read, congrArg some label,
        optional_reads reads (object_begins _) (by decide)⟩

theorem document_reads (covers : outcome.Covers threshold count strategies)
    (finite : threshold.IsFinite) (words : count < wordLimit)
    (bounded : ∀ strategy report, outcome.report? strategy = some report → report.IsBounded) :
    ∃ read : BenchmarkOutcome, read.Covers threshold count strategies ∧
      Reads (Document.reader : Reader BenchmarkOutcome) (Document.toValue outcome) read := by
  obtain ⟨sequentialScan, sequentialLabel, sequentialReads⟩ :=
    report_reads outcome.sequentialScan (bounded .sequentialScan)
  obtain ⟨indexScan, indexLabel, indexReads⟩ := report_reads outcome.indexScan (bounded .indexScan)
  refine ⟨{ threshold, queryCount := count, sequentialScan, indexScan }, ⟨rfl, rfl, ?_⟩, ?_⟩
  · intro strategy
    rw [← covers.reports strategy]
    cases strategy with
    | sequentialScan => exact sequentialLabel
    | indexScan => exact indexLabel
  · have complete : form.complete
        { threshold := some threshold, queryCount := some count
          sequentialScan := some sequentialScan, indexScan := some indexScan } =
        .ok { threshold, queryCount := count, sequentialScan, indexScan } := rfl
    have thresholdReads : Reads Reader.single (.single outcome.threshold) threshold :=
      covers.threshold ▸ single_reads (covers.threshold ▸ finite)
    have countReads :
        Reads (Reader.natural "usize" wordLimit) (.integer outcome.queryCount) count :=
      covers.queryCount ▸ natural_reads (covers.queryCount ▸ words) (by decide)
    refine record_reads (.cons (by decide +kernel) rfl rfl (store_reads thresholdReads _) ?_)
      complete
    refine .cons (by decide +kernel) rfl rfl (store_reads countReads _) ?_
    refine .cons (by decide +kernel) rfl rfl (store_reads sequentialReads _) ?_
    refine .cons (by decide +kernel) rfl rfl (store_reads indexReads _) ?_
    exact .nil _

theorem document_refuses (other : ¬outcome.threshold.IsFinite) :
    Refuses (Document.reader : Reader BenchmarkOutcome) (Document.toValue outcome)
      (.invalidType .null "f32") :=
  record_refuses_first (by decide +kernel) rfl rfl (store_refuses (single_refuses other) _)

end BenchmarkOutcome

theorem FileTree.loadDocument_of_load {α : Type} [Document α] {tree : FileTree} {path : String}
    {content : List UInt8} (held : tree.load path = .ok content) :
    (tree.loadDocument path : Except Error α) =
      (Json.parse content).mapError fun complaint => .serialization (.json complaint) := by
  rw [loadDocument, held]
  rfl

namespace Benchmark

variable {evaluator : RecallEvaluator} {runs : List ExecutionRun} {outcome : BenchmarkOutcome}

/-! ## Outcomes of graded runs -/

theorem queries_of_grade {begun : BenchmarkOutcome}
    (graded : grade evaluator runs begun = .ok outcome) :
    outcome.threshold = begun.threshold ∧ outcome.queryCount = begun.queryCount := by
  induction runs generalizing begun with
  | nil =>
      cases graded
      exact ⟨rfl, rfl⟩
  | cons run rest ih =>
      obtain ⟨report, -, later⟩ := Failure.bind_eq_ok_iff.mp graded
      obtain ⟨threshold, count⟩ := ih later
      have kept := BenchmarkOutcome.foldl_withReport_queries [report] begun
      exact ⟨threshold.trans kept.1, count.trans kept.2⟩

variable {threshold : Binary32} {count : Nat}

theorem covers_of_grade (distinct : (runs.map ExecutionRun.strategy).Nodup)
    (graded : grade evaluator runs { threshold, queryCount := count } = .ok outcome) :
    outcome.Covers threshold count (runs.map ExecutionRun.strategy) := by
  obtain ⟨reports, others⟩ := report_of_grade distinct graded
  refine ⟨(queries_of_grade graded).1, (queries_of_grade graded).2, fun strategy => ?_⟩
  split
  · rename_i member
    obtain ⟨run, runMember, rfl⟩ := List.mem_map.mp member
    obtain ⟨report, evaluated, found⟩ := reports run runMember
    rw [found, Option.map_some, RecallEvaluator.strategy_of_evaluate evaluated]
  · rename_i absent
    rw [others strategy absent]
    cases strategy <;> rfl

theorem isBounded_of_grade (distinct : (runs.map ExecutionRun.strategy).Nodup)
    (graded : grade evaluator runs { threshold, queryCount := count } = .ok outcome)
    (words : ∀ run ∈ runs, run.records.length < wordLimit) {strategy : ScanStrategy}
    {report : RecallReport} (found : outcome.report? strategy = some report) :
    report.IsBounded := by
  obtain ⟨reports, others⟩ := report_of_grade distinct graded
  by_cases member : strategy ∈ runs.map ExecutionRun.strategy
  · obtain ⟨run, runMember, rfl⟩ := List.mem_map.mp member
    obtain ⟨same, evaluated, place⟩ := reports run runMember
    cases found.symm.trans place
    exact RecallEvaluator.isBounded_of_evaluate evaluated (words run runMember)
  · rw [others strategy member] at found
    cases strategy <;> cases found

/-! ## Benchmarks that succeeded -/

theorem load_outcomeFile_of_saved {directory : String} {tree last : FileTree}
    (distinct : (runs.map ExecutionRun.strategy).Nodup)
    (saved : tree.changeAll (resultFiles directory runs outcome) = (.ok (), last)) :
    last.load (PathText.entryIn directory outcomeFile) = .ok (Json.render outcome) := by
  rw [resultFiles_eq] at saved
  obtain ⟨prepared, -, written⟩ := FileTree.changeAll_cons_eq_ok.mp saved
  exact FileTree.load_of_saved
    (fun file member => isEntryName_of_mem_resultNames (mem_resultNames runs outcome file member))
    (nodup_savedFiles distinct outcome) written (outcomeFile, Json.render outcome)
    (List.mem_append_right _ (List.mem_singleton_self _))

variable {benchmark : Benchmark σ} {queries : VectorBatch} {truth : GroundTruth}
  {environment last : Environment σ}

/-- After a benchmark that saved its results, the file of the outcome is read as an outcome on
the same threshold, number of queries and strategies if the threshold is finite. If it is not,
it has been written as null, and the file is refused for that. -/
theorem saved_outcome_read_back {directory : String} (words : queries.count < wordLimit)
    (saves : benchmark.config.resultsDirectory = some directory)
    (ran : benchmark.runWith queries truth environment = (.ok outcome, last)) :
    let loaded : Except Error BenchmarkOutcome :=
      last.files.loadDocument (PathText.entryIn directory outcomeFile)
    outcome.Covers truth.threshold queries.count benchmark.config.strategies ∧
      (truth.threshold.IsFinite → ∃ read, loaded = .ok read ∧
        read.Covers truth.threshold queries.count benchmark.config.strategies) ∧
      (¬truth.threshold.IsFinite →
        loaded = .error (.serialization (.json (.invalidType .null "f32")))) := by
  intro loaded
  obtain ⟨valid, -, runs, middle, session, graded, saved⟩ := runWith_eq_ok saves ran
  have all := runsAll_of_runStrategies session
  have labels := map_strategy_of_runsAll all
  have distinct : (runs.map ExecutionRun.strategy).Nodup :=
    labels ▸ BenchmarkConfig.nodup_strategies valid
  have lengths (run : ExecutionRun) (member : run ∈ runs) : run.records.length < wordLimit :=
    (aligned_of_runsAll all run member).1 ▸ words
  have covers : outcome.Covers truth.threshold queries.count benchmark.config.strategies :=
    labels ▸ covers_of_grade distinct graded
  have parsed : loaded = (Json.parse (Json.render outcome)).mapError _ :=
    FileTree.loadDocument_of_load (load_outcomeFile_of_saved distinct saved)
  refine ⟨covers, fun finite => ?_, fun other => ?_⟩
  · obtain ⟨read, same, reads⟩ := BenchmarkOutcome.document_reads covers finite words
      fun strategy report => isBounded_of_grade distinct graded lengths
    rw [parse_render reads] at parsed
    exact ⟨read, parsed, same⟩
  · rw [← covers.threshold] at other
    rw [parse_render_error (BenchmarkOutcome.document_refuses other)] at parsed
    exact parsed

def firstRowWithin (threshold : Binary32) : GroundTruth :=
  { firstRowOnly with threshold }

theorem saving_succeeds {threshold : Binary32}
    (answered : MemoryHost.backend.firstFailure? false
      (sessionCalls saving (onLine [⟨0⟩]) threshold)
      (MemoryHost.ofStore (MemoryStore.numberedFrom 1 (onLine [⟨0⟩]))) = none) :
    ∃ outcome last,
      (inMemory saving Clock.still false).runWith (onLine [⟨0⟩]) (firstRowWithin threshold) {
        store := MemoryHost.ofStore (MemoryStore.numberedFrom 1 (onLine [⟨0⟩])) } =
          (.ok outcome, last) := by
  have fits : ∀ neighbor ∈ firstRowOnly.neighborIds,
      (neighbor.toNat : Int) + saving.idOffset.shift.toInt < signedLimit :=
    List.forall_mem_singleton.mpr (by decide)
  obtain ⟨runs, outcome, last, -, -, -, ran⟩ := @runWith_of_success _
    (inMemory saving Clock.still false) (onLine [⟨0⟩]) (firstRowWithin threshold) {
      store := MemoryHost.ofStore (MemoryStore.numberedFrom 1 (onLine [⟨0⟩])) }
    fits rfl rfl answered
  obtain ⟨files, saved⟩ := savable_in_results runs outcome
  refine ⟨outcome, { last with files := files }, ?_⟩
  rw [ran]
  simp only [inMemory, saving, saved]
  rfl

theorem one_query_read_back_unless_infinite :
    (∃ outcome last, ∃ read : BenchmarkOutcome,
      (inMemory saving Clock.still false).runWith (onLine [⟨0⟩]) (firstRowWithin ⟨0x3f800000⟩) {
        store := MemoryHost.ofStore (MemoryStore.numberedFrom 1 (onLine [⟨0⟩])) } =
          (.ok outcome, last) ∧
        last.files.loadDocument (PathText.entryIn "results" outcomeFile) = .ok read ∧
        read.Covers ⟨0x3f800000⟩ 1 saving.strategies) ∧
      ∃ outcome last,
        (inMemory saving Clock.still false).runWith (onLine [⟨0⟩])
          (firstRowWithin ⟨0x7f800000⟩) {
            store := MemoryHost.ofStore (MemoryStore.numberedFrom 1 (onLine [⟨0⟩])) } =
            (.ok outcome, last) ∧
          (last.files.loadDocument (PathText.entryIn "results" outcomeFile) :
              Except Error BenchmarkOutcome) =
            .error (.serialization (.json (.invalidType .null "f32"))) := by
  constructor
  · obtain ⟨outcome, last, ran⟩ := @saving_succeeds ⟨0x3f800000⟩ (by decide +kernel)
    have finite : (⟨0x3f800000⟩ : Binary32).IsFinite := ⟨false, 2 ^ 23, -23, by decide +kernel⟩
    obtain ⟨-, readBack, -⟩ := saved_outcome_read_back (by decide) rfl ran
    obtain ⟨read, loaded, covers⟩ := readBack finite
    exact ⟨outcome, last, read, ran, loaded, covers⟩
  · obtain ⟨outcome, last, ran⟩ := @saving_succeeds ⟨0x7f800000⟩ (by decide +kernel)
    have infinite : ¬(⟨0x7f800000⟩ : Binary32).IsFinite := by
      rintro ⟨_, _, _, same⟩
      have value : (⟨0x7f800000⟩ : Binary32).value = .infinite false := by decide +kernel
      rw [value] at same
      cases same
    exact ⟨outcome, last, ran, (saved_outcome_read_back (by decide) rfl ran).2.2 infinite⟩

end Benchmark

end RangeRecall
