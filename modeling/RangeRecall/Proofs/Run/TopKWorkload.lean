import RangeRecall.Proofs.Grade.Finite
import RangeRecall.Proofs.Grade.TopK
import RangeRecall.Proofs.Store.MemoryHost
import RangeRecall.Proofs.Store.TopK
import RangeRecall.Proofs.Vector.Encoding

/-! Top-k workloads on a store in memory. The store answers both strategies alike, so a run graded
against the other finds everything. How many identifiers an answer has depends only on how many
rows pass the filter, even where distances are no numbers and the heap cannot order them. -/

namespace RangeRecall

namespace MemoryStore

variable {store : MemoryStore} {k : Nat}

def nearestIds (store : MemoryStore) (k : Nat) (filter : Option IdFilter)
    (vector : List Binary32) : List UInt64 :=
  (nearest k ((store.admittedRows (admitsAll filter)).map (store.candidate vector))).map
    Candidate.id

def passing (store : MemoryStore) (filter : Option IdFilter) : Nat :=
  (store.admittedRows (admitsAll filter)).length

theorem length_nearest (positive : 0 < k) (candidates : List Candidate) :
    (nearest k candidates).length = min k candidates.length := by
  rcases @WorstFirst.sorted_foldl_offer _ Candidate.isNearer k positive candidates with
    ⟨_, _, length, _⟩
  exact length

theorem length_nearestIds (positive : 0 < k) (filter : Option IdFilter)
    (vector : List Binary32) :
    (store.nearestIds k filter vector).length = min k (store.passing filter) := by
  rw [nearestIds, List.length_map, length_nearest positive, List.length_map, passing]

/-- A run of the top-k queries over a batch: one record for each, in order, with the identifiers
of the nearest rows. -/
structure HoldsNearest (store : MemoryStore) (k : Nat) (filter : Option IdFilter)
    (queries : VectorBatch) (run : ExecutionRun) : Prop where
  resultIds : run.records.map ExecutionRecord.resultIds =
    queries.rows.map (store.nearestIds k filter)
  indices : run.records.map ExecutionRecord.index = List.range' 0 run.records.length

namespace HoldsNearest

variable {filter : Option IdFilter} {queries : VectorBatch} {run : ExecutionRun}

theorem length (holds : store.HoldsNearest k filter queries run) :
    run.records.length = queries.count := by
  have lengths := congrArg List.length holds.resultIds
  rwa [List.length_map, List.length_map, VectorBatch.length_rows] at lengths

theorem sizes (holds : store.HoldsNearest k filter queries run) (positive : 0 < k) :
    ∀ record ∈ run.records, record.resultIds.length = min k (store.passing filter) := by
  intro record member
  have listed := List.mem_map_of_mem (f := ExecutionRecord.resultIds) member
  rw [holds.resultIds] at listed
  rcases List.mem_map.mp listed with ⟨vector, _, isAnswer⟩
  rw [← isAnswer, length_nearestIds positive]

end HoldsNearest

end MemoryStore

namespace MemoryHost

variable {store : MemoryStore} {queries : VectorBatch} {k : Nat}

theorem topKRun_yields {executor : Executor MemoryHost} (backend : executor.backend = backend)
    (sameDimension : queries.dimension = store.base.dimension) (positive : 0 < k)
    (reservable : k * MemoryStore.candidateSize ≤ allocationLimit)
    (numbered : ∀ row < store.base.count, row + store.idBase.toNat < wordLimit)
    (filter : Option IdFilter) (strategy : ScanStrategy) :
    ∃ run : ExecutionRun,
      Activity.Yields (Serves · store)
        (executor.run (Query.topKQueries queries k filter strategy)) run (Serves · store) ∧
      store.HoldsNearest k filter queries run := by
  have answers : ∀ query ∈ Query.topKQueries queries k filter strategy,
      executor.Answers (Serves · store) (fun query => store.nearestIds k filter query.vector)
        query := by
    intro query member
    rw [Query.topKQueries_eq_map] at member
    rcases List.mem_map.mp member with ⟨index, inside, rfl⟩
    have fits : store.base.count = 0 ∨ (queries.row index).length = store.base.dimension := by
      rw [VectorBatch.length_row (List.mem_range.mp inside)]
      exact .inr sameDimension
    exact MemoryHost.answers backend fits
      (MemoryStore.topKSearch_eq fits (MemoryStore.count_add_idBase_le numbered) positive
        reservable)
  refine ⟨_, Executor.run_yields (fun _ => Query.strategyOf_numbered) answers, ?_, ?_⟩
  · rw [Query.topKQueries_eq_map, VectorBatch.rows_eq_map, List.map_map, List.map_map,
      List.map_map]
    rfl
  · rw [Query.topKQueries_eq_map, List.map_map, List.map_map, List.length_map, List.length_map,
      List.length_range, ← List.range_eq_range']
    exact List.map_id _

end MemoryHost

/-- Running the same filtered top-k queries for both strategies on one open store gives the same
identifiers twice. Graded against each other, the runs find everything, and they are short exactly
if fewer than `k` rows pass the filter. -/
theorem TopKReport.workload_consistent {store : MemoryStore} {queries : VectorBatch} {k : Nat}
    (isOpen : store.closed = false) (sameDimension : queries.dimension = store.base.dimension)
    (positive : 0 < k) (reservable : k * MemoryStore.candidateSize ≤ allocationLimit)
    (numbered : ∀ row < store.base.count, row + store.idBase.toNat < wordLimit)
    {first second : Executor MemoryHost} (firstBackend : first.backend = MemoryHost.backend)
    (secondBackend : second.backend = MemoryHost.backend) (filter : Option IdFilter)
    (files : FileTree) (log : List LogMessage) :
    let start : Environment MemoryHost := {
      store := MemoryHost.ofStore store
      files := files
      log := log }
    ∃ baseline target middle last report,
      first.run (Query.topKQueries queries k filter .sequentialScan) start =
        (.ok baseline, middle) ∧
      second.run (Query.topKQueries queries k filter .indexScan) middle = (.ok target, last) ∧
      baseline.records.length = queries.count ∧
      target.records.map ExecutionRecord.resultIds =
        baseline.records.map ExecutionRecord.resultIds ∧
      TopKReport.compare baseline target k = .ok report ∧
      TopKReport.totalHits k baseline.records target.records =
        TopKReport.relevantCount k baseline.records ∧
      TopKReport.relevantCount k baseline.records =
        queries.count * min k (store.passing filter) ∧
      report.aggregateRecall =
        Recall.share (TopKReport.totalHits k baseline.records target.records)
          (TopKReport.relevantCount k baseline.records) ∧
      (TopKReport.relevantCount k baseline.records < wordLimit →
        report.aggregateRecall = Binary64.one) ∧
      report.shortResults = if k ≤ store.passing filter then 0 else queries.count := by
  intro start
  have serves : start.store.Serves store :=
    { noStop := rfl, alike := { isOpen := isOpen, base := rfl, metric := rfl, idBase := rfl } }
  rcases MemoryHost.topKRun_yields firstBackend sameDimension positive reservable numbered filter
    .sequentialScan with ⟨baseline, baselineYields, baselineHolds⟩
  rcases MemoryHost.topKRun_yields secondBackend sameDimension positive reservable numbered filter
    .indexScan with ⟨target, targetYields, targetHolds⟩
  rcases baselineYields start serves with ⟨middle, baselineRan, middleServes, _⟩
  rcases targetYields middle middleServes with ⟨last, targetRan, _, _⟩
  have same : target.records.map ExecutionRecord.resultIds =
      baseline.records.map ExecutionRecord.resultIds :=
    targetHolds.resultIds.trans baselineHolds.resultIds.symm
  have hits := @TopKReport.totalHits_of_same_answers k _ _ same
  have compared := TopKReport.compare_eq_ok positive
    (baselineHolds.length.trans targetHolds.length.symm) baselineHolds.indices targetHolds.indices
  refine ⟨baseline, target, middle, last, _, baselineRan, targetRan, baselineHolds.length, same,
    compared, hits, ?_, rfl, ?_, ?_⟩
  · rw [TopKReport.relevantCount_of_sizes (Nat.min_le_left _ _) (baselineHolds.sizes positive),
      baselineHolds.length]
  · intro fits
    dsimp only
    rw [hits, Recall.share_self fits]
  · dsimp only
    rw [TopKReport.countP_short_of_sizes (targetHolds.sizes positive), targetHolds.length]
    simp only [Nat.le_min, Nat.le_refl, true_and]

theorem TopKReport.two_queries_short :
    let executor : Executor MemoryHost := { backend := MemoryHost.backend }
    let queriesFor := Query.topKQueries .twoVectors 3 (some (.lessThan 3))
    ∃ baseline target middle last report,
      executor.run (queriesFor .sequentialScan) { store := .ofStore MemoryStore.fourOnLine } =
        (.ok baseline, middle) ∧
      executor.run (queriesFor .indexScan) middle = (.ok target, last) ∧
      TopKReport.compare baseline target 3 = .ok report ∧
      report.aggregateRecall = Binary64.one ∧ report.shortResults = 2 := by
  intro executor queriesFor
  rcases @TopKReport.workload_consistent MemoryStore.fourOnLine .twoVectors 3 rfl rfl (by decide)
    (by decide) (by decide) executor executor rfl rfl (some (.lessThan 3)) {} [] with
    ⟨baseline, target, middle, last, report, baselineRan, targetRan, _, _, compared, _, relevant,
      _, perfect, short⟩
  have passing : MemoryStore.fourOnLine.passing (some (.lessThan 3)) = 2 := by decide
  rw [passing] at relevant short
  refine ⟨baseline, target, middle, last, report, baselineRan, targetRan, compared, ?_, short⟩
  exact perfect (by rw [relevant]; decide)

end RangeRecall
