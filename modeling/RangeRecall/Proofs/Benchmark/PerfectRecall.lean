import RangeRecall.Proofs.Benchmark.Admission
import RangeRecall.Proofs.Grade.Recall
import RangeRecall.Proofs.GroundTruth.NearRows
import RangeRecall.Proofs.Store.MemoryHost

/-! Benchmarks over the vectors that a ground truth was computed from. The store numbers the rows
from a base that the grading adds to the neighbors, so both mean the same rows: every strategy
finds every neighbor, and nothing else. -/

namespace RangeRecall

namespace BenchmarkConfig

theorem nodup_of_firstRepeated?_eq_none {seen strategies : List ScanStrategy}
    (none : firstRepeated? seen strategies = none) :
    strategies.Nodup ∧ ∀ strategy ∈ strategies, strategy ∉ seen := by
  induction strategies generalizing seen with
  | nil => exact ⟨List.nodup_nil, fun _ member => absurd member List.not_mem_nil⟩
  | cons strategy rest induction =>
      rw [firstRepeated?] at none
      split at none
      · cases none
      · rename_i fresh
        have later := induction none
        have absent : strategy ∉ rest := fun member =>
          later.2 strategy member List.mem_cons_self
        refine ⟨List.nodup_cons.mpr ⟨absent, later.1⟩, ?_⟩
        intro other member
        rcases List.mem_cons.mp member with rfl | member
        · exact fresh
        · intro seenBefore
          exact later.2 other member (List.mem_cons_of_mem _ seenBefore)

theorem nodup_strategies {config : BenchmarkConfig} (valid : config.validateExecution = .ok ()) :
    config.strategies.Nodup := by
  unfold validateExecution at valid
  split at valid
  · cases valid
  · split at valid
    · cases valid
    · rename_i none
      exact (nodup_of_firstRepeated?_eq_none none).1

end BenchmarkConfig

/-! ## Outcomes -/

namespace BenchmarkOutcome

theorem report?_withReport (outcome : BenchmarkOutcome) (report : RecallReport)
    (strategy : ScanStrategy) :
    (outcome.withReport report).report? strategy =
      if strategy = report.strategy then some report else outcome.report? strategy := by
  unfold withReport
  cases reported : report.strategy <;> cases strategy <;> rfl

theorem report?_foldl_of_not_mem {reports : List RecallReport} {strategy : ScanStrategy}
    (absent : strategy ∉ reports.map RecallReport.strategy) (outcome : BenchmarkOutcome) :
    (reports.foldl withReport outcome).report? strategy = outcome.report? strategy := by
  induction reports generalizing outcome with
  | nil => rfl
  | cons report rest induction =>
      rw [List.map_cons, List.mem_cons, not_or] at absent
      rw [List.foldl_cons, induction absent.2, report?_withReport, if_neg absent.1]

theorem report?_foldl_of_mem {reports : List RecallReport}
    (distinct : (reports.map RecallReport.strategy).Nodup) {report : RecallReport}
    (member : report ∈ reports) (outcome : BenchmarkOutcome) :
    (reports.foldl withReport outcome).report? report.strategy = some report := by
  induction reports generalizing outcome with
  | nil => cases member
  | cons first rest induction =>
      rw [List.map_cons, List.nodup_cons] at distinct
      rw [List.foldl_cons]
      rcases List.mem_cons.mp member with rfl | member
      · rw [report?_foldl_of_not_mem distinct.1, report?_withReport, if_pos rfl]
      · exact induction distinct.2 member _

end BenchmarkOutcome

namespace Benchmark

theorem grade_eq_ok {evaluator : RecallEvaluator} {reportOf : ExecutionRun → RecallReport}
    {runs : List ExecutionRun}
    (graded : ∀ run ∈ runs, evaluator.evaluate run = .ok (reportOf run))
    (outcome : BenchmarkOutcome) :
    grade evaluator runs outcome =
      .ok ((runs.map reportOf).foldl BenchmarkOutcome.withReport outcome) := by
  induction runs generalizing outcome with
  | nil => rfl
  | cons run rest induction =>
      have first := graded run List.mem_cons_self
      have others := induction fun other member => graded other (List.mem_cons_of_mem _ member)
      rw [grade, first]
      exact others _

end Benchmark

/-! ## Rows and their numbers -/

def VectorBatch.neighborsWithin (base : VectorBatch) (threshold : Binary32)
    (vector : List Binary32) : List UInt32 :=
  (DistanceMetric.euclidean.within threshold vector 0 base.rows).map fun hit =>
    UInt32.ofNat hit.1

def identifier (first : Nat) (neighbor : UInt32) : UInt64 :=
  UInt64.ofNat (neighbor.toNat + first)

theorem toNat_identifier {first : Nat} (fits : first + fieldLimit < signedLimit)
    (neighbor : UInt32) : (identifier first neighbor).toNat = neighbor.toNat + first := by
  have bound := neighbor.toNat_lt
  apply UInt64.toNat_ofNat_of_lt'
  simp only [fieldLimit, signedLimit, UInt64.size] at *
  omega

def MemoryStore.numberedFrom (first : Nat) (base : VectorBatch) : MemoryStore :=
  { base := base, idBase := UInt64.ofNat first }

section

variable {base queries : VectorBatch} {threshold : Binary32} {truth : GroundTruth} {first : Nat}

theorem GroundTruth.neighbors_exact
    (built : GroundTruth.exact base queries threshold = .ok truth) {index : Nat}
    (inside : index < queries.count) :
    truth.neighbors index = .ok (base.neighborsWithin threshold (queries.row index)) := by
  rw [VectorBatch.neighborsWithin, DistanceMetric.within_rows, List.map_map]
  exact (row_of_exact built (VectorBatch.getElem?_rows inside)).1

theorem MemoryStore.rangeSearch_numberedFrom (rowsFit : base.count ≤ fieldLimit)
    (fits : first + fieldLimit < signedLimit) {vector : List Binary32}
    (comparable : ∀ other ∈ base.rows, vector.length = other.length) :
    (numberedFrom first base).rangeSearch vector threshold =
      .ok ((base.neighborsWithin threshold vector).map (identifier first)) := by
  have idBase : (numberedFrom first base).idBase.toNat = first := by
    apply UInt64.toNat_ofNat_of_lt'
    simp only [fieldLimit, signedLimit, UInt64.size] at *
    omega
  have inside : ∀ row ∈ DistanceMetric.euclidean.nearRows threshold vector base,
      row < base.count := fun _ near => (DistanceMetric.mem_nearRows.mp near).1
  have room : ∀ row ∈ DistanceMetric.euclidean.nearRows threshold vector base,
      row + first < wordLimit := by
    intro row near
    have isRow := inside row near
    simp only [fieldLimit, signedLimit, wordLimit] at *
    omega
  rw [rangeSearch_eq comparable (by rw [idBase]; exact room), idBase,
    VectorBatch.neighborsWithin, DistanceMetric.within_rows, List.map_map, List.map_map]
  congr 1
  apply List.map_congr_left
  intro row near
  have number : (UInt32.ofNat row).toNat = row :=
    UInt32.toNat_ofNat_of_lt' (Nat.lt_of_lt_of_le (inside row near) rowsFit)
  simp only [Function.comp_apply, identifier, number]

end

/-! ## The pipeline -/

namespace Benchmark

def inMemory (config : BenchmarkConfig) (clock : Clock) (heedsStop : Bool) :
    Benchmark MemoryHost where
  config := config
  backend := MemoryHost.backend
  clock := clock
  heedsStop := heedsStop

def numberedAnswer (base : VectorBatch) (threshold : Binary32) (first : Nat) (query : Query) :
    List UInt64 :=
  (base.neighborsWithin threshold query.vector).map (identifier first)

def numberedRecord (base : VectorBatch) (threshold : Binary32) (first : Nat) (clock : Clock)
    (query : Query) : ExecutionRecord where
  index := query.index
  strategy := query.strategy
  latency := clock.latency query
  resultIds := numberedAnswer base threshold first query

def numberedRun (base queries : VectorBatch) (threshold : Binary32) (first : Nat) (clock : Clock)
    (strategy : ScanStrategy) : ExecutionRun where
  strategy := strategy
  records := (Query.rangeQueries queries threshold strategy).map
    (numberedRecord base threshold first clock)
  wallClock :=
    clock.wallClock (Executor.strategyOf (Query.rangeQueries queries threshold strategy))

variable {base queries : VectorBatch} {threshold : Binary32} {truth : GroundTruth} {first : Nat}
  {config : BenchmarkConfig} {clock : Clock} {heedsStop : Bool}

theorem runStrategy_yields (agrees : base.count = 0 ∨ queries.count = 0 ∨
      base.dimension = queries.dimension)
    (rowsFit : base.count ≤ fieldLimit) (fits : first + fieldLimit < signedLimit)
    (strategy : ScanStrategy) :
    Activity.Yields (MemoryHost.Serves · (MemoryStore.numberedFrom first base))
      ((inMemory config clock heedsStop).runStrategy queries threshold strategy)
      (numberedRun base queries threshold first clock strategy)
      (MemoryHost.Serves · (MemoryStore.numberedFrom first base)) := by
  have answers : ∀ query ∈ Query.rangeQueries queries threshold strategy,
      (inMemory config clock heedsStop).executor.Answers
        (MemoryHost.Serves · (MemoryStore.numberedFrom first base))
        (numberedAnswer base threshold first) query := by
    intro query member
    rw [Query.rangeQueries_eq_map] at member
    rcases List.mem_map.mp member with ⟨index, inside, rfl⟩
    have isQuery := List.mem_range.mp inside
    have dimension : base.count = 0 ∨ (queries.row index).length = base.dimension := by
      rw [VectorBatch.length_row isQuery]
      omega
    have comparable := GroundTruth.comparable_of_dimension agrees (queries.row index)
      (List.mem_of_getElem? (VectorBatch.getElem?_rows isQuery))
    exact MemoryHost.answers rfl dimension
      (MemoryStore.rangeSearch_numberedFrom rowsFit fits comparable)
  exact .bind (Executor.run_yields (fun _ => Query.strategyOf_numbered) answers) (.pure _)

theorem runStrategies_yields (agrees : base.count = 0 ∨ queries.count = 0 ∨
      base.dimension = queries.dimension)
    (rowsFit : base.count ≤ fieldLimit) (fits : first + fieldLimit < signedLimit) :
    Activity.Yields (· = MemoryHost.ofStore (MemoryStore.numberedFrom first base))
      ((inMemory config clock heedsStop).runStrategies queries threshold)
      (config.strategies.map (numberedRun base queries threshold first clock))
      (fun _ => True) := by
  have ran : Activity.Yields (MemoryHost.Serves · (MemoryStore.numberedFrom first base))
      (Activity.forAll ((inMemory config clock heedsStop).runStrategy queries threshold)
        config.strategies)
      (config.strategies.map (numberedRun base queries threshold first clock))
      (MemoryHost.Serves · (MemoryStore.numberedFrom first base)) :=
    .forAll fun strategy _ => runStrategy_yields agrees rowsFit fits strategy
  exact .bind (MemoryHost.start_yields rfl _ _)
    (.bind (Session.dropOnFailure_yields _ _ ran)
      (.bind (MemoryHost.finish_yields _) (.pure _)))

theorem finds_identifier (fits : first + fieldLimit < signedLimit)
    (shift : config.idOffset.shift.toInt = first) {neighbors : List UInt32} {neighbor : UInt32}
    (member : neighbor ∈ neighbors) :
    (evaluator config truth).Finds (neighbors.map (identifier first)) neighbor := by
  have bound := neighbor.toNat_lt
  have room : neighbor.toNat + first < signedLimit := by
    simp only [fieldLimit] at fits
    omega
  have sum : (neighbor.toNat : Int) + config.idOffset.shift.toInt =
      (neighbor.toNat + first : Nat) := by
    rw [shift, Int.natCast_add]
  exact ⟨_, List.mem_map_of_mem member, IdOffset.storeId?_of_sum sum room⟩

theorem numberedRun_perfect (built : GroundTruth.exact base queries threshold = .ok truth)
    (fits : first + fieldLimit < signedLimit) (shift : config.idOffset.shift.toInt = first)
    (strategy : ScanStrategy) :
    (evaluator config truth).Perfect first
      (numberedRun base queries threshold first clock strategy) := by
  have count := GroundTruth.queryCount_exact built
  constructor
  · change List.length (List.map _ _) = truth.queryCount
    rw [List.length_map, Query.length_rangeQueries, count]
  · intro index inside
    change index < truth.queryCount at inside
    rw [count] at inside
    have expected := GroundTruth.neighbors_exact built inside
    have place : (Query.rangeQueries queries threshold strategy)[index]? =
        some (Query.range index (queries.row index) threshold strategy) := by
      simp [Query.rangeQueries_eq_map, inside]
    have finds : ∀ neighbor ∈ base.neighborsWithin threshold (queries.row index),
        (evaluator config truth).Finds
          ((base.neighborsWithin threshold (queries.row index)).map (identifier first))
          neighbor := fun _ => finds_identifier fits shift
    have counted := RecallEvaluator.tally_eq_ok expected finds
    have distinct : truth.distinctNeighbors index =
        (base.neighborsWithin threshold (queries.row index)).eraseDups.length := by
      rw [GroundTruth.distinctNeighbors, expected]
    refine ⟨numberedRecord base threshold first clock
      (Query.range index (queries.row index) threshold strategy), _, ?_, rfl, rfl, expected,
      ?_, ?_⟩
    · rw [numberedRun, List.getElem?_map, place, Option.map_some]
    · change List.map _ (List.map _ _) = _
      rw [List.map_map]
      exact List.map_congr_left fun neighbor _ => toNat_identifier fits neighbor
    · change _ = Except.ok (truth.distinctNeighbors index, truth.distinctNeighbors index)
      rw [distinct]
      exact counted

theorem grade_of_perfect {evaluator : RecallEvaluator} {runs : List ExecutionRun}
    (distinct : (runs.map ExecutionRun.strategy).Nodup)
    (perfect : ∀ run ∈ runs, evaluator.Perfect first run) (outcome : BenchmarkOutcome) :
    ∃ final, grade evaluator runs outcome = .ok final ∧
      ∀ run ∈ runs, final.report? run.strategy = some (evaluator.perfectReport run) := by
  have graded := grade_eq_ok (fun run member => (perfect run member).evaluate) outcome
  have strategies : ((runs.map evaluator.perfectReport).map RecallReport.strategy).Nodup := by
    rw [List.map_map]
    exact distinct
  refine ⟨_, graded, ?_⟩
  intro run member
  exact BenchmarkOutcome.report?_foldl_of_mem strategies (List.mem_map_of_mem member) outcome

/-- A store in memory over the vectors that the ground truth was computed from finds every
neighbor with every strategy, if the grading shifts by the identifier of its first row. -/
theorem runWith_finds_every_neighbor
    (built : GroundTruth.exact base queries threshold = .ok truth)
    (rowsFit : base.count ≤ fieldLimit) (fits : first + fieldLimit < signedLimit)
    (shift : config.idOffset.shift.toInt = first)
    (valid : config.validateExecution = .ok ()) (unsaved : config.resultsDirectory = none)
    (clock : Clock) (heedsStop : Bool) (files : FileTree) (log : List LogMessage) :
    let benchmark := inMemory config clock heedsStop
    let start : Environment MemoryHost := {
      store := MemoryHost.ofStore (MemoryStore.numberedFrom first base)
      files := files
      log := log }
    ∃ runs outcome ended,
      benchmark.runStrategies queries truth.threshold start = (.ok runs, ended) ∧
        benchmark.runWith queries truth start = (.ok outcome, ended) ∧
        truth.queryCount = queries.count ∧
        runs.map ExecutionRun.strategy = config.strategies ∧
        ∀ run ∈ runs, (evaluator config truth).Perfect first run ∧
          outcome.report? run.strategy =
            some ((evaluator config truth).perfectReport run) := by
  intro benchmark start
  have count := GroundTruth.queryCount_exact built
  have sameThreshold : truth.threshold = threshold :=
    (GroundTruth.ofRows_eq_ok (GroundTruth.ofRows_of_exact_eq_ok built)).2.1
  subst sameThreshold
  -- All runs are known before any of them is graded.
  have yields : Activity.Yields (· = MemoryHost.ofStore (MemoryStore.numberedFrom first base))
      (benchmark.runStrategies queries truth.threshold)
      (config.strategies.map (numberedRun base queries truth.threshold first clock))
      (fun _ => True) :=
    runStrategies_yields (GroundTruth.dimension_of_exact_eq_ok built) rowsFit fits
  rcases yields start rfl with ⟨ended, ran, -, -⟩
  have strategies : (config.strategies.map
      (numberedRun base queries truth.threshold first clock)).map ExecutionRun.strategy =
        config.strategies := by
    rw [List.map_map]
    exact List.map_id config.strategies
  have perfect : ∀ run ∈ config.strategies.map
      (numberedRun base queries truth.threshold first clock),
        (evaluator config truth).Perfect first run := by
    intro run member
    rcases List.mem_map.mp member with ⟨strategy, _, rfl⟩
    exact numberedRun_perfect built fits shift strategy
  have distinct := BenchmarkConfig.nodup_strategies valid
  rw [← strategies] at distinct
  rcases grade_of_perfect distinct perfect {
    threshold := truth.threshold, queryCount := queries.count } with ⟨final, graded, reports⟩
  refine ⟨_, final, ended, ran, ?_, count, strategies,
    fun run member => ⟨perfect run member, reports run member⟩⟩
  have admitted : benchmark.config.validateExecution = .ok () := valid
  have noDirectory : benchmark.config.resultsDirectory = none := unsaved
  rw [runWith_of_valid admitted, if_neg (fun differ => differ count.symm),
    Activity.bind_run_ok ran, gradeAndSave_of_unsaved noDirectory]
  exact congrArg (·, ended) graded

theorem two_vectors_found :
    ∃ truth, ∃ runs : List ExecutionRun, ∃ outcome ended,
      GroundTruth.exact (onLine [⟨0⟩, ⟨0x40000000⟩]) (onLine [⟨0⟩]) ⟨0x3f800000⟩ = .ok truth ∧
        (inMemory {} Clock.still false).runWith (onLine [⟨0⟩]) truth {
          store := MemoryHost.ofStore (MemoryStore.numberedFrom 1 (onLine [⟨0⟩, ⟨0x40000000⟩])) }
            = (.ok outcome, ended) ∧
        runs.map ExecutionRun.strategy = [.sequentialScan, .indexScan] ∧
        ∀ run ∈ runs, (evaluator {} truth).Perfect 1 run ∧
          outcome.report? run.strategy = some ((evaluator {} truth).perfectReport run) := by
  have few : (([[⟨0⟩]] : List (List Binary32)).map (GroundTruth.exactRow ⟨0x3f800000⟩
      (onLine [⟨0⟩, ⟨0x40000000⟩]))).flatten.length < fieldLimit := by
    have row := GroundTruth.length_exactRow_le ⟨0x3f800000⟩ (onLine [⟨0⟩, ⟨0x40000000⟩]) [⟨0⟩]
    have two : (onLine [⟨0⟩, ⟨0x40000000⟩]).count = 2 := rfl
    rw [List.map_singleton, List.flatten_singleton, fieldLimit]
    omega
  have agrees : (onLine [⟨0⟩, ⟨0x40000000⟩]).count = 0 ∨ (onLine [⟨0⟩]).count = 0 ∨
      (onLine [⟨0⟩, ⟨0x40000000⟩]).dimension = (onLine [⟨0⟩]).dimension := .inr (.inr rfl)
  rcases GroundTruth.exists_exact agrees few with ⟨truth, built⟩
  have offset : ({} : BenchmarkConfig).idOffset.shift.toInt = (1 : Nat) := by decide
  have valid : ({} : BenchmarkConfig).validateExecution = .ok () := rfl
  rcases runWith_finds_every_neighbor built (by decide) (by decide) offset valid rfl
    Clock.still false {} [] with
    ⟨runs, outcome, ended, -, finished, -, strategies, perfect⟩
  exact ⟨truth, runs, outcome, ended, built, finished, strategies, perfect⟩

end Benchmark

end RangeRecall
