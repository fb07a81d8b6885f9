import RangeRecall.Grade.Recall
import RangeRecall.Proofs.Failure

/-! When a run is graded, and when it has found everything. A run lines up with a ground truth if
its records count up from zero, and a record is perfect if the shifted identifier of every
neighbor is among the returned ones. -/

namespace RangeRecall

/-! ## Alignment -/

theorem firstMisplaced?_eq_none_iff {position : Nat} {records : List ExecutionRecord} :
    firstMisplaced? position records = none ↔
      records.map ExecutionRecord.index = List.range' position records.length := by
  induction records generalizing position with
  | nil => simp [firstMisplaced?]
  | cons record rest induction =>
      rw [firstMisplaced?, List.map_cons, List.length_cons, List.range'_succ, List.cons_eq_cons]
      by_cases inPlace : record.index = position
      · rw [if_pos inPlace, induction]
        exact (and_iff_right inPlace).symm
      · rw [if_neg inPlace]
        simp [inPlace]

theorem checkRecordOrder_eq_ok {records : List ExecutionRecord}
    (ordered : records.map ExecutionRecord.index = List.range' 0 records.length) :
    checkRecordOrder records = .ok () := by
  rw [checkRecordOrder, firstMisplaced?_eq_none_iff.mpr ordered]

namespace IdOffset

theorem storeId?_of_sum {offset : IdOffset} {neighbor : UInt32} {id : Nat}
    (sum : (neighbor.toNat : Int) + offset.shift.toInt = id) (fits : id < signedLimit) :
    offset.storeId? neighbor = .ok (some (UInt64.ofNat id)) := by
  have below : (id : Int) < signedLimit := by omega
  simp only [storeId?, sum, if_pos below, if_pos (Int.natCast_nonneg id), Int.toNat_natCast]

end IdOffset

namespace RecallEvaluator

variable {evaluator : RecallEvaluator}

/-! ## Perfect answers -/

def Finds (evaluator : RecallEvaluator) (returned : List UInt64) (neighbor : UInt32) : Prop :=
  ∃ id ∈ returned, evaluator.idOffset.storeId? neighbor = .ok (some id)

theorem countFound_eq_length {returned : List UInt64} {neighbors : List UInt32}
    (finds : ∀ neighbor ∈ neighbors, evaluator.Finds returned neighbor) :
    evaluator.countFound returned neighbors = .ok neighbors.length := by
  induction neighbors with
  | nil => rfl
  | cons neighbor rest induction =>
      rcases finds neighbor List.mem_cons_self with ⟨id, member, shifted⟩
      have others := induction fun other otherMember =>
        finds other (List.mem_cons_of_mem _ otherMember)
      have contained : returned.contains id = true := List.contains_iff_mem.mpr member
      rw [countFound, shifted, others]
      change Except.ok (if returned.contains id then _ else _) = _
      rw [if_pos contained, List.length_cons]

theorem tally_eq_ok {query : Nat} {returned : List UInt64} {neighbors : List UInt32}
    (expected : evaluator.groundTruth.neighbors query = .ok neighbors)
    (finds : ∀ neighbor ∈ neighbors, evaluator.Finds returned neighbor) :
    evaluator.tally query returned =
      .ok (neighbors.eraseDups.length, neighbors.eraseDups.length) := by
  have counted : evaluator.countFound returned neighbors.eraseDups =
      .ok neighbors.eraseDups.length := by
    apply countFound_eq_length
    intro neighbor member
    exact finds neighbor (List.mem_eraseDups.mp member)
  rw [tally, expected]
  change (evaluator.countFound returned neighbors.eraseDups >>= _) = _
  rw [counted]
  rfl

theorem queryRecall_eq_ok [RealArithmetic α] {query found total : Nat} {returned : List UInt64}
    (counted : evaluator.tally query returned = .ok (found, total)) :
    evaluator.queryRecall query returned = .ok (Recall.share found total : α) := by
  rw [queryRecall, counted]
  rfl

/-! ## Grading -/

theorem checkAlignment_eq_ok {records : List ExecutionRecord}
    (complete : records.length = evaluator.groundTruth.queryCount)
    (ordered : records.map ExecutionRecord.index = List.range' 0 records.length) :
    evaluator.checkAlignment records = .ok () := by
  rw [checkAlignment, if_pos complete, checkRecordOrder_eq_ok ordered]

theorem recalls_eq_ok [RealArithmetic α] {records : List ExecutionRecord}
    {recallOf : ExecutionRecord → α}
    (aligned : evaluator.checkAlignment records = .ok ())
    (graded : ∀ record ∈ records,
      evaluator.queryRecall record.index record.resultIds = .ok (recallOf record)) :
    evaluator.recalls records = .ok (records.map recallOf) := by
  have lifted : (records.mapM fun record =>
        (liftM (evaluator.queryRecall record.index record.resultIds : Except Fault α) :
          Attempt α)) =
      .ok (records.map recallOf) := by
    apply Failure.mapM_eq_ok
    intro record member
    rw [graded record member]
    rfl
  rw [recalls, aligned]
  exact lifted

def reportOn (evaluator : RecallEvaluator) (run : ExecutionRun) (recalls : List Binary64) :
    RecallReport where
  strategy := run.strategy
  queryCount := recalls.length
  aggregateRecall := Recall.aggregate recalls
  queriesPerSecond := throughput run.records.length run.wallClock
  wallClock := run.wallClock
  latency := LatencyStats.ofDurations run.latencies
  perQueryRecall := if evaluator.keepsPerQuery then some recalls else none

theorem evaluate_eq_ok {run : ExecutionRun} {recalls : List Binary64}
    (graded : evaluator.recalls run.records = .ok recalls) :
    evaluator.evaluate run = .ok (evaluator.reportOn run recalls) := by
  rw [evaluate, graded]
  rfl

end RecallEvaluator

/-! ## Runs that find everything -/

def GroundTruth.distinctNeighbors (truth : GroundTruth) (index : Nat) : Nat :=
  match truth.neighbors index with
  | .ok neighbors => neighbors.eraseDups.length
  | .error _ => 0

def GroundTruth.perfectRecall (truth : GroundTruth) (index : Nat) : Binary64 :=
  Recall.share (truth.distinctNeighbors index) (truth.distinctNeighbors index)

/-- For each query of the ground truth, in order, the run holds the identifiers of exactly its
neighbors, and they all count as hits. -/
structure RecallEvaluator.Perfect (evaluator : RecallEvaluator) (first : Nat)
    (run : ExecutionRun) : Prop where
  complete : run.records.length = evaluator.groundTruth.queryCount
  answers : ∀ index < evaluator.groundTruth.queryCount, ∃ record neighbors,
    run.records[index]? = some record ∧ record.index = index ∧
      record.strategy = run.strategy ∧
      evaluator.groundTruth.neighbors index = .ok neighbors ∧
      record.resultIds.map UInt64.toNat = neighbors.map (fun neighbor => neighbor.toNat + first) ∧
      evaluator.tally index record.resultIds =
        .ok (evaluator.groundTruth.distinctNeighbors index,
          evaluator.groundTruth.distinctNeighbors index)

namespace RecallEvaluator

variable {evaluator : RecallEvaluator} {first : Nat} {run : ExecutionRun}

theorem Perfect.indices (perfect : evaluator.Perfect first run) :
    run.records.map ExecutionRecord.index = List.range' 0 run.records.length := by
  apply List.ext_getElem?
  intro index
  by_cases inside : index < run.records.length
  · rw [perfect.complete] at inside
    rcases perfect.answers index inside with ⟨record, _, found, inPlace, _⟩
    rw [List.getElem?_map, found, Option.map_some, inPlace, perfect.complete,
      List.getElem?_range' inside]
    simp
  · simp [inside]

def perfectReport (evaluator : RecallEvaluator) (run : ExecutionRun) : RecallReport :=
  evaluator.reportOn run
    ((List.range evaluator.groundTruth.queryCount).map evaluator.groundTruth.perfectRecall)

theorem Perfect.evaluate (perfect : evaluator.Perfect first run) :
    evaluator.evaluate run = .ok (evaluator.perfectReport run) := by
  have aligned := checkAlignment_eq_ok perfect.complete perfect.indices
  have graded : ∀ record ∈ run.records,
      evaluator.queryRecall record.index record.resultIds =
        .ok (evaluator.groundTruth.perfectRecall record.index) := by
    intro record member
    rcases List.getElem?_of_mem member with ⟨index, found⟩
    have inside : index < evaluator.groundTruth.queryCount := by
      rw [← perfect.complete]
      exact (List.getElem?_eq_some_iff.mp found).1
    rcases perfect.answers index inside with ⟨_, _, foundAgain, inPlace, _, _, _, counted⟩
    cases found.symm.trans foundAgain
    rw [inPlace]
    exact queryRecall_eq_ok counted
  have recalls := recalls_eq_ok aligned graded
  have byPosition : run.records.map (fun record =>
        evaluator.groundTruth.perfectRecall record.index) =
      (List.range evaluator.groundTruth.queryCount).map
        evaluator.groundTruth.perfectRecall := by
    rw [← Function.comp_def, ← List.map_map, perfect.indices, perfect.complete,
      List.range_eq_range']
  rw [byPosition] at recalls
  exact evaluate_eq_ok recalls

end RecallEvaluator

end RangeRecall
