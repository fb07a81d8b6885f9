import Mathlib.Data.Finset.Card
import RangeRecall.Proofs.Grade.Recall
import RangeRecall.Proofs.GroundTruth.Parts

/-! Recall as a share of a set. The grading goes through lists, and the recall that it gives to a
query is the share of its set of neighbors whose shifted numbers were returned, so neither order
nor repetition matters. Runs that do not line up with the ground truth are refused instead. -/

namespace RangeRecall

/-! ## Alignment -/

theorem firstMisplaced?_eq_of_first {start position : Nat} {records : List ExecutionRecord}
    {record : ExecutionRecord} (found : records[position]? = some record)
    (misplaced : record.index ≠ start + position)
    (before : ∀ earlier < position, ∀ other, records[earlier]? = some other →
      other.index = start + earlier) :
    firstMisplaced? start records = some (start + position, record.index) := by
  induction records generalizing start position with
  | nil => cases found
  | cons head rest induction =>
      rw [firstMisplaced?]
      cases position with
      | zero =>
          cases found
          exact if_neg misplaced
      | succ position =>
          have inPlace : head.index = start := before 0 (Nat.succ_pos position) head rfl
          have ahead (place : Nat) : start + (place + 1) = start + 1 + place := by omega
          rw [if_pos inPlace, ahead position]
          rw [ahead position] at misplaced
          refine induction found misplaced fun earlier isBefore other otherFound => ?_
          rw [← ahead earlier]
          exact before (earlier + 1) (Nat.succ_lt_succ isBefore) other otherFound

theorem checkRecordOrder_of_first {position : Nat} {records : List ExecutionRecord}
    {record : ExecutionRecord} (found : records[position]? = some record)
    (misplaced : record.index ≠ position)
    (before : ∀ earlier < position, ∀ other, records[earlier]? = some other →
      other.index = earlier) :
    checkRecordOrder records = .error (.recordOutOfOrder position record.index) := by
  have first : firstMisplaced? 0 records = some (0 + position, record.index) := by
    refine firstMisplaced?_eq_of_first found ?_ fun earlier isBefore other otherFound => ?_
    · rwa [Nat.zero_add]
    · rw [before earlier isBefore other otherFound, Nat.zero_add]
  rw [checkRecordOrder, first, Nat.zero_add]

theorem firstMisplaced?_congr {position : Nat} {left right : List ExecutionRecord}
    (same : left.map ExecutionRecord.index = right.map ExecutionRecord.index) :
    firstMisplaced? position left = firstMisplaced? position right := by
  induction left generalizing right position with
  | nil =>
      cases right with
      | nil => rfl
      | cons _ _ => cases same
  | cons record rest induction =>
      cases right with
      | nil => cases same
      | cons other others =>
          have parts := List.cons_eq_cons.mp same
          rw [firstMisplaced?, firstMisplaced?, parts.1, induction parts.2]

def ExecutionRun.InOrder (run : ExecutionRun) : Prop :=
  ∀ (position : Nat) (record : ExecutionRecord),
    run.records[position]? = some record → record.index = position

theorem ExecutionRun.inOrder_iff {run : ExecutionRun} :
    run.InOrder ↔
      run.records.map ExecutionRecord.index = List.range' 0 run.records.length := by
  constructor
  · intro ordered
    apply List.ext_getElem?
    intro position
    by_cases inside : position < run.records.length
    · have inPlace := ordered position _ (List.getElem?_eq_getElem inside)
      simp [inside, inPlace]
    · simp [inside]
  · intro indices position record found
    have inside := (List.getElem?_eq_some_iff.mp found).1
    have atPosition := congrArg (fun indices => indices[position]?) indices
    rw [List.getElem?_map, found, List.getElem?_range' inside] at atPosition
    simpa using atPosition

namespace IdOffset

def Returns (offset : IdOffset) (returned : List UInt64) (neighbor : UInt32) : Prop :=
  ∃ id ∈ returned, (id.toNat : Int) = neighbor.toNat + offset.shift.toInt

instance (offset : IdOffset) (returned : List UInt64) :
    DecidablePred (offset.Returns returned) :=
  fun _ => inferInstanceAs (Decidable (∃ id ∈ returned, _))

def Fits (offset : IdOffset) (neighbor : UInt32) : Prop :=
  (neighbor.toNat : Int) + offset.shift.toInt < signedLimit

/-- The neighbors whose shifted numbers are returned, each of them once. -/
def hits (offset : IdOffset) (neighbors : List UInt32) (returned : List UInt64) :
    Finset UInt32 :=
  neighbors.toFinset.filter (offset.Returns returned)

theorem storeId?_spec {offset : IdOffset} {neighbor : UInt32} (fits : offset.Fits neighbor)
    (returned : List UInt64) :
    ∃ id?, offset.storeId? neighbor = .ok id? ∧
      (id?.any returned.contains = true ↔ offset.Returns returned neighbor) := by
  have below : (neighbor.toNat : Int) + offset.shift.toInt < signedLimit := fits
  simp only [storeId?, if_pos below]
  split
  · rename_i notNegative
    refine ⟨_, rfl, ?_⟩
    have value : (UInt64.ofNat ((neighbor.toNat : Int) + offset.shift.toInt).toNat).toNat =
        ((neighbor.toNat : Int) + offset.shift.toInt).toNat := by
      apply UInt64.toNat_ofNat_of_lt'
      simp only [signedLimit, UInt64.size] at *
      omega
    rw [Option.any_some, List.contains_iff_mem]
    constructor
    · intro member
      exact ⟨_, member, by rw [value]; omega⟩
    · rintro ⟨id, member, same⟩
      have isId : id.toNat = ((neighbor.toNat : Int) + offset.shift.toInt).toNat := by omega
      rw [← isId, UInt64.ofNat_toNat]
      exact member
  · rename_i negative
    refine ⟨_, rfl, ⟨fun impossible => (by cases impossible), ?_⟩⟩
    rintro ⟨id, _, same⟩
    omega

end IdOffset

theorem nodup_eraseDups [DecidableEq α] : ∀ items : List α, items.eraseDups.Nodup
  | [] => .nil
  | item :: rest => by
      rw [List.eraseDups_cons, List.nodup_cons]
      refine ⟨fun member => ?_, nodup_eraseDups _⟩
      simpa using List.mem_eraseDups.mp member
termination_by items => items.length
decreasing_by exact Nat.lt_succ_of_le (List.length_filter_le _ _)

theorem toFinset_eraseDups [DecidableEq α] (items : List α) :
    items.eraseDups.toFinset = items.toFinset :=
  List.toFinset.ext fun _ => List.mem_eraseDups

theorem length_eraseDups [DecidableEq α] (items : List α) :
    items.eraseDups.length = items.toFinset.card := by
  rw [← toFinset_eraseDups, List.toFinset_card_of_nodup (nodup_eraseDups items)]

namespace GroundTruth

variable {truth : GroundTruth}

theorem exists_neighbors {query : Nat} (inside : query < truth.queryCount) :
    ∃ neighbors, truth.neighbors query = .ok neighbors ∧ neighbors ⊆ truth.neighborIds := by
  obtain ⟨first, last, -, -, row, -⟩ := exists_row inside
  exact ⟨_, row, List.Subset.trans (List.take_subset _ _) (List.drop_subset _ _)⟩

theorem lt_queryCount_of_neighbors {query : Nat} {neighbors : List UInt32}
    (row : truth.neighbors query = .ok neighbors) : query < truth.queryCount := by
  refine Nat.lt_of_not_le fun behind => ?_
  cases (row_of_behind behind).1.symm.trans row

theorem distinctNeighbors_of_row {query : Nat} {neighbors : List UInt32}
    (row : truth.neighbors query = .ok neighbors) :
    truth.distinctNeighbors query = neighbors.toFinset.card := by
  rw [distinctNeighbors, row]
  exact length_eraseDups neighbors

end GroundTruth

namespace RecallEvaluator

variable {evaluator : RecallEvaluator}

theorem countFound_eq {returned : List UInt64} {neighbors : List UInt32}
    (fits : ∀ neighbor ∈ neighbors, evaluator.idOffset.Fits neighbor) :
    evaluator.countFound returned neighbors =
      .ok (neighbors.filter fun neighbor =>
        evaluator.idOffset.Returns returned neighbor).length := by
  induction neighbors with
  | nil => rfl
  | cons neighbor rest induction =>
      have others := induction fun other member => fits other (List.mem_cons_of_mem _ member)
      rcases IdOffset.storeId?_spec (fits neighbor List.mem_cons_self) returned with
        ⟨id?, shifted, contained⟩
      rw [countFound, shifted, others, List.filter_cons]
      change Except.ok (if id?.any returned.contains = true then _ else _) = _
      by_cases found : evaluator.idOffset.Returns returned neighbor
      · rw [if_pos (contained.mpr found), if_pos (decide_eq_true found), List.length_cons]
      · rw [if_neg (fun any => found (contained.mp any)), if_neg (by simpa using found)]

theorem tally_eq_card {query : Nat} {neighbors : List UInt32} (returned : List UInt64)
    (row : evaluator.groundTruth.neighbors query = .ok neighbors)
    (fits : ∀ neighbor ∈ neighbors, evaluator.idOffset.Fits neighbor) :
    evaluator.tally query returned =
      .ok ((evaluator.idOffset.hits neighbors returned).card, neighbors.toFinset.card) := by
  have counted : evaluator.countFound returned neighbors.eraseDups =
      .ok (evaluator.idOffset.hits neighbors returned).card := by
    rw [countFound_eq fun neighbor member => fits neighbor (List.mem_eraseDups.mp member),
      IdOffset.hits, ← toFinset_eraseDups,
      ← List.toFinset_card_of_nodup ((nodup_eraseDups neighbors).filter _), List.toFinset_filter]
    simp only [decide_eq_true_eq]
  rw [tally, row, ← length_eraseDups]
  change (evaluator.countFound returned neighbors.eraseDups >>= _) = _
  rw [counted]
  rfl

theorem checkAlignment_eq_ok_iff {run : ExecutionRun} :
    evaluator.checkAlignment run.records = .ok () ↔
      run.records.length = evaluator.groundTruth.queryCount ∧ run.InOrder := by
  rw [ExecutionRun.inOrder_iff, ← firstMisplaced?_eq_none_iff, checkAlignment]
  split
  · rename_i complete
    rw [checkRecordOrder]
    cases firstMisplaced? 0 run.records with
    | none => simp [complete]
    | some misplaced => simp
  · rename_i incomplete
    simp [incomplete]

theorem checkAlignment_of_misplaced {run : ExecutionRun} {position : Nat}
    {record : ExecutionRecord} (complete : run.records.length = evaluator.groundTruth.queryCount)
    (found : run.records[position]? = some record) (misplaced : record.index ≠ position)
    (before : ∀ earlier < position, ∀ other, run.records[earlier]? = some other →
      other.index = earlier) :
    evaluator.checkAlignment run.records = .error (.recordOutOfOrder position record.index) := by
  rw [checkAlignment, if_pos complete, checkRecordOrder_of_first found misplaced before]

theorem evaluate_of_misaligned {run : ExecutionRun} {cause : Error}
    (refused : evaluator.checkAlignment run.records = .error cause) :
    evaluator.evaluate run = .error (.error cause) := by
  rw [evaluate, recalls, refused]
  rfl

def ShiftsFit (evaluator : RecallEvaluator) : Prop :=
  ∀ query neighbors, evaluator.groundTruth.neighbors query = .ok neighbors →
    ∀ neighbor ∈ neighbors, evaluator.idOffset.Fits neighbor

def hitCount (evaluator : RecallEvaluator) (record : ExecutionRecord) : Nat :=
  match evaluator.groundTruth.neighbors record.index with
  | .ok neighbors => (evaluator.idOffset.hits neighbors record.resultIds).card
  | .error _ => 0

def shareOf {α : Type} [RealArithmetic α] (evaluator : RecallEvaluator)
    (record : ExecutionRecord) : α :=
  Recall.share (evaluator.hitCount record)
    (evaluator.groundTruth.distinctNeighbors record.index)

theorem hitCount_of_row {record : ExecutionRecord} {neighbors : List UInt32}
    (row : evaluator.groundTruth.neighbors record.index = .ok neighbors) :
    evaluator.hitCount record = (evaluator.idOffset.hits neighbors record.resultIds).card := by
  rw [hitCount, row]

theorem hitCount_le (evaluator : RecallEvaluator) (record : ExecutionRecord) :
    evaluator.hitCount record ≤ evaluator.groundTruth.distinctNeighbors record.index := by
  rcases row : evaluator.groundTruth.neighbors record.index with _ | neighbors
  · rw [hitCount, row]
    exact Nat.zero_le _
  · rw [hitCount_of_row row, GroundTruth.distinctNeighbors_of_row row]
    exact Finset.card_filter_le _ _

def setRecall (evaluator : RecallEvaluator) (record : ExecutionRecord) : Binary64 :=
  match evaluator.groundTruth.neighbors record.index with
  | .ok neighbors =>
      if neighbors = [] then .one
      else (Binary64.ofNat (evaluator.idOffset.hits neighbors record.resultIds).card).divide
        (.ofNat neighbors.toFinset.card)
  | .error _ => .one

theorem shareOf_eq_setRecall (record : ExecutionRecord) :
    evaluator.shareOf record = evaluator.setRecall record := by
  rcases row : evaluator.groundTruth.neighbors record.index with _ | neighbors
  · rw [shareOf, setRecall, GroundTruth.distinctNeighbors, row]
    rfl
  · have empty : neighbors.toFinset.card = 0 ↔ neighbors = [] := by
      rw [Finset.card_eq_zero, List.toFinset_eq_empty_iff]
    rw [shareOf, hitCount_of_row row, GroundTruth.distinctNeighbors_of_row row, setRecall, row]
    simp only [Recall.share, empty]
    rfl

theorem shiftsFit_of_neighborIds
    (fits : ∀ neighbor ∈ evaluator.groundTruth.neighborIds, evaluator.idOffset.Fits neighbor) :
    evaluator.ShiftsFit := by
  intro query neighbors row neighbor member
  have inside := GroundTruth.lt_queryCount_of_neighbors row
  rcases GroundTruth.exists_neighbors inside with ⟨_, sameRow, subset⟩
  cases row.symm.trans sameRow
  exact fits neighbor (subset member)

theorem exists_row {run : ExecutionRun}
    (complete : run.records.length = evaluator.groundTruth.queryCount) (ordered : run.InOrder)
    {record : ExecutionRecord} (member : record ∈ run.records) :
    ∃ neighbors, evaluator.groundTruth.neighbors record.index = .ok neighbors := by
  rcases List.getElem?_of_mem member with ⟨position, found⟩
  have inside := (List.getElem?_eq_some_iff.mp found).1
  rw [complete, ← ordered position record found] at inside
  rcases GroundTruth.exists_neighbors inside with ⟨neighbors, row, -⟩
  exact ⟨neighbors, row⟩

/-- The arithmetic matters only to how shares are computed. -/
theorem recalls_of_aligned {α : Type} [RealArithmetic α] {run : ExecutionRun}
    (fits : evaluator.ShiftsFit)
    (complete : run.records.length = evaluator.groundTruth.queryCount) (ordered : run.InOrder) :
    evaluator.recalls run.records = .ok (run.records.map (evaluator.shareOf (α := α))) := by
  apply recalls_eq_ok (checkAlignment_eq_ok_iff.mpr ⟨complete, ordered⟩)
  intro record member
  rcases exists_row complete ordered member with ⟨neighbors, row⟩
  rw [shareOf, hitCount_of_row row, GroundTruth.distinctNeighbors_of_row row]
  exact queryRecall_eq_ok (tally_eq_card record.resultIds row (fits _ _ row))

theorem evaluate_of_aligned {run : ExecutionRun} (fits : evaluator.ShiftsFit)
    (complete : run.records.length = evaluator.groundTruth.queryCount) (ordered : run.InOrder) :
    evaluator.recalls run.records = .ok (run.records.map evaluator.setRecall) ∧
      evaluator.evaluate run =
        .ok (evaluator.reportOn run (run.records.map evaluator.setRecall)) := by
  have recalls := @recalls_of_aligned _ Binary64 _ _ fits complete ordered
  rw [List.map_congr_left fun record _ => shareOf_eq_setRecall record] at recalls
  exact ⟨recalls, evaluate_eq_ok recalls⟩

end RecallEvaluator

theorem LatencyStats.count_ofDurations (durations : List Duration) :
    (LatencyStats.ofDurations durations).count = durations.length := by
  have length : ((durations.map Duration.toMilliseconds).mergeSort Binary64.precedes).length =
      durations.length := by
    rw [List.length_mergeSort, List.length_map]
  rw [ofDurations, ← length]
  cases (durations.map Duration.toMilliseconds).mergeSort Binary64.precedes with
  | nil => rfl
  | cons _ _ => rfl

/-! ## Order and repetition -/

/-- Two records that differ at most in the order and the repetition of what was returned. -/
structure ExecutionRecord.SameSet (record other : ExecutionRecord) : Prop where
  index : record.index = other.index
  latency : record.latency = other.latency
  ids : ∀ id, id ∈ record.resultIds ↔ id ∈ other.resultIds

structure ExecutionRun.SameSets (run other : ExecutionRun) : Prop where
  strategy : run.strategy = other.strategy
  wallClock : run.wallClock = other.wallClock
  records : List.Forall₂ ExecutionRecord.SameSet run.records other.records

/-- Two evaluators whose ground truths have the same sets of neighbors. -/
structure RecallEvaluator.SameSets (evaluator other : RecallEvaluator) : Prop where
  idOffset : evaluator.idOffset = other.idOffset
  keepsPerQuery : evaluator.keepsPerQuery = other.keepsPerQuery
  queryCount : evaluator.groundTruth.queryCount = other.groundTruth.queryCount
  neighbors : ∀ query left right, evaluator.groundTruth.neighbors query = .ok left →
    other.groundTruth.neighbors query = .ok right → ∀ neighbor, neighbor ∈ left ↔ neighbor ∈ right

theorem ExecutionRun.SameSets.map_eq {run otherRun : ExecutionRun}
    (sameRun : run.SameSets otherRun) {field otherField : ExecutionRecord → α}
    (same : ∀ record other, record.SameSet other → field record = otherField other) :
    run.records.map field = otherRun.records.map otherField := by
  have mapped := sameRun.records.imp fun record other => same record other
  rw [← List.forall₂_eq_eq_eq, List.forall₂_map_left_iff, List.forall₂_map_right_iff]
  exact mapped

theorem IdOffset.hits_congr {offset : IdOffset} {left right : List UInt32}
    {returned otherReturned : List UInt64}
    (neighbors : ∀ neighbor, neighbor ∈ left ↔ neighbor ∈ right)
    (ids : ∀ id, id ∈ returned ↔ id ∈ otherReturned) :
    offset.hits left returned = offset.hits right otherReturned := by
  ext neighbor
  simp only [hits, Finset.mem_filter, List.mem_toFinset, Returns, neighbors, ids]

namespace RecallEvaluator

variable {evaluator other : RecallEvaluator} {run otherRun : ExecutionRun}

theorem SameSets.shiftsFit (same : evaluator.SameSets other) (fits : evaluator.ShiftsFit) :
    other.ShiftsFit := by
  intro query right otherRow neighbor member
  have inside := GroundTruth.lt_queryCount_of_neighbors otherRow
  rw [← same.queryCount] at inside
  rcases GroundTruth.exists_neighbors inside with ⟨left, row, -⟩
  rw [← same.idOffset]
  exact fits query left row neighbor ((same.neighbors query left right row otherRow neighbor).mpr
    member)

theorem SameSets.setRecall_eq (same : evaluator.SameSets other)
    {record otherRecord : ExecutionRecord} (sameRecord : record.SameSet otherRecord) :
    evaluator.setRecall record = other.setRecall otherRecord := by
  rw [setRecall, setRecall, ← sameRecord.index, ← same.idOffset]
  rcases row : evaluator.groundTruth.neighbors record.index with _ | left
  · rcases otherRow : other.groundTruth.neighbors record.index with _ | right
    · rfl
    · have inside := GroundTruth.lt_queryCount_of_neighbors otherRow
      rw [← same.queryCount] at inside
      rcases GroundTruth.exists_neighbors inside with ⟨_, sameRow, -⟩
      cases row.symm.trans sameRow
  · have inside := GroundTruth.lt_queryCount_of_neighbors row
    rw [same.queryCount] at inside
    rcases GroundTruth.exists_neighbors inside with ⟨right, otherRow, -⟩
    have members := same.neighbors _ left right row otherRow
    have sets : left.toFinset = right.toFinset := List.toFinset.ext members
    have empty : left = [] ↔ right = [] := by
      rw [← List.toFinset_eq_empty_iff, sets, List.toFinset_eq_empty_iff]
    simp only [otherRow, sets, empty, IdOffset.hits_congr members sameRecord.ids]

theorem SameSets.checkAlignment_eq (same : evaluator.SameSets other)
    (sameRun : run.SameSets otherRun) :
    evaluator.checkAlignment run.records = other.checkAlignment otherRun.records := by
  have indices := sameRun.map_eq fun _ _ sameRecord => sameRecord.index
  rw [checkAlignment, checkAlignment, checkRecordOrder, checkRecordOrder,
    firstMisplaced?_congr indices, sameRun.records.length_eq, same.queryCount]

theorem SameSets.evaluate_eq (same : evaluator.SameSets other) (sameRun : run.SameSets otherRun)
    (fits : evaluator.ShiftsFit) : evaluator.evaluate run = other.evaluate otherRun := by
  have alignment := same.checkAlignment_eq sameRun
  rcases aligned : evaluator.checkAlignment run.records with cause | _
  · rw [evaluate_of_misaligned aligned, evaluate_of_misaligned (alignment.symm.trans aligned)]
  · have inOrder := checkAlignment_eq_ok_iff.mp aligned
    have otherInOrder := checkAlignment_eq_ok_iff.mp (alignment.symm.trans aligned)
    rw [(evaluate_of_aligned fits inOrder.1 inOrder.2).2,
      (evaluate_of_aligned (same.shiftsFit fits) otherInOrder.1 otherInOrder.2).2]
    have recalls := sameRun.map_eq fun _ _ sameRecord => same.setRecall_eq sameRecord
    have latencies : run.latencies = otherRun.latencies :=
      sameRun.map_eq fun _ _ sameRecord => sameRecord.latency
    rw [reportOn, reportOn, recalls, latencies, sameRun.strategy, sameRun.wallClock,
      sameRun.records.length_eq, same.keepsPerQuery]

/-! ## Grading as a whole -/

theorem exists_evaluate_iff (fits : evaluator.ShiftsFit) :
    (∃ report, evaluator.evaluate run = .ok report) ↔
      run.records.length = evaluator.groundTruth.queryCount ∧ run.InOrder := by
  constructor
  · rintro ⟨report, graded⟩
    rw [← checkAlignment_eq_ok_iff]
    rcases refused : evaluator.checkAlignment run.records with cause | _
    · rw [evaluate_of_misaligned refused] at graded
      cases graded
    · rfl
  · rintro ⟨complete, ordered⟩
    exact ⟨_, (evaluate_of_aligned fits complete ordered).2⟩

/-- A run is graded exactly if it has one record for each query, in order. Otherwise the error
tells the two numbers, or if they agree the first record out of its place. The recall of each
query is the share of its set of neighbors that was returned, whatever their order and
repetition. -/
theorem evaluate_grades_sets (evaluator : RecallEvaluator) (run : ExecutionRun)
    (fits : ∀ neighbor ∈ evaluator.groundTruth.neighborIds,
      (neighbor.toNat : Int) + evaluator.idOffset.shift.toInt < signedLimit) :
    let truth := evaluator.groundTruth
    ((∃ report, evaluator.evaluate run = .ok report) ↔
      run.records.length = truth.queryCount ∧ run.InOrder) ∧
    (run.records.length ≠ truth.queryCount →
      evaluator.evaluate run =
        .error (.error (.alignment run.records.length truth.queryCount))) ∧
    (run.records.length = truth.queryCount →
      ∀ position record, run.records[position]? = some record → record.index ≠ position →
        (∀ earlier < position, ∀ other, run.records[earlier]? = some other →
          other.index = earlier) →
        evaluator.evaluate run = .error (.error (.recordOutOfOrder position record.index))) ∧
    (∀ report, evaluator.evaluate run = .ok report →
      ∃ recalls : List Binary64, evaluator.recalls run.records = .ok recalls ∧
        recalls.length = truth.queryCount ∧
        (∀ query record, run.records[query]? = some record →
          ∃ neighbors, truth.neighbors query = .ok neighbors ∧
            let total := neighbors.toFinset.card
            let hit := (evaluator.idOffset.hits neighbors record.resultIds).card
            recalls[query]? = some (if neighbors = [] then .one
              else (Binary64.ofNat hit).divide (.ofNat total)) ∧
            hit ≤ total ∧
            (hit = total ↔ ∀ neighbor ∈ neighbors,
              evaluator.idOffset.Returns record.resultIds neighbor)) ∧
        report.queryCount = truth.queryCount ∧
        report.latency.count = truth.queryCount ∧
        report.aggregateRecall = Recall.aggregate recalls ∧
        report.perQueryRecall = if evaluator.keepsPerQuery then some recalls else none) ∧
    (∀ other otherRun, evaluator.SameSets other → run.SameSets otherRun →
      evaluator.evaluate run = other.evaluate otherRun) := by
  intro truth
  have shiftsFit := shiftsFit_of_neighborIds fits
  refine ⟨exists_evaluate_iff shiftsFit, fun differ => evaluate_of_misaligned (if_neg differ),
    fun complete position record found misplaced before =>
      evaluate_of_misaligned (checkAlignment_of_misplaced complete found misplaced before),
    ?_, fun other otherRun same sameRun => same.evaluate_eq sameRun shiftsFit⟩
  intro report graded
  rcases (exists_evaluate_iff shiftsFit).mp ⟨report, graded⟩ with ⟨complete, ordered⟩
  have whole := evaluate_of_aligned shiftsFit complete ordered
  cases graded.symm.trans whole.2
  have length : (run.records.map evaluator.setRecall).length = truth.queryCount := by
    rw [List.length_map, complete]
  refine ⟨_, whole.1, length, ?_, length, ?_, rfl, rfl⟩
  · intro query record found
    have inside : query < truth.queryCount := by
      rw [← complete]
      exact (List.getElem?_eq_some_iff.mp found).1
    rcases GroundTruth.exists_neighbors inside with ⟨neighbors, row, -⟩
    refine ⟨neighbors, row, ?_, Finset.card_filter_le _ _, ?_⟩
    · rw [List.getElem?_map, found, Option.map_some, setRecall, ordered query record found, row]
    · simp only [IdOffset.hits, Finset.card_filter_eq_iff, List.mem_toFinset]
  · rw [reportOn, LatencyStats.count_ofDurations, ExecutionRun.latencies, List.length_map,
      complete]

def fiveBelow : RecallEvaluator where
  groundTruth := {
    threshold := ⟨0⟩
    offsets := [0, 3, 3, 4]
    neighborIds := [4, 4, 7, 0]
    neighborDistances := [⟨0⟩, ⟨0⟩, ⟨0⟩, ⟨0⟩]
    rowOffsets := by decide
    length_distances := rfl }
  idOffset := { shift := -5 }

def runOf (answers : List (List UInt64)) : ExecutionRun where
  strategy := .indexScan
  records := answers.mapIdx fun index ids =>
    { index := index, strategy := .indexScan, latency := .zero, resultIds := ids }
  wallClock := .zero

theorem fiveBelow_half_found :
    ∃ report recalls, fiveBelow.evaluate (runOf [[2, 2, 9], [], []]) = .ok report ∧
      fiveBelow.recalls (runOf [[2, 2, 9], [], []]).records = .ok recalls ∧
      recalls.length = 3 ∧ recalls[0]? = some (⟨0x3fe0000000000000⟩ : Binary64) := by
  have fits : ∀ neighbor ∈ fiveBelow.groundTruth.neighborIds,
      (neighbor.toNat : Int) + fiveBelow.idOffset.shift.toInt < signedLimit := by
    intro neighbor _
    have shift : fiveBelow.idOffset.shift.toInt = -5 := by decide
    have bound := neighbor.toNat_lt
    simp only [shift, signedLimit]
    omega
  rcases evaluate_grades_sets fiveBelow (runOf [[2, 2, 9], [], []]) fits with
    ⟨graded, -, -, recalled, -⟩
  have ordered : (runOf [[2, 2, 9], [], []]).InOrder :=
    ExecutionRun.inOrder_iff.mpr (by decide)
  rcases graded.mpr ⟨rfl, ordered⟩ with ⟨report, evaluated⟩
  rcases recalled report evaluated with ⟨recalls, recallsOk, length, each, -⟩
  rcases each 0 _ rfl with ⟨neighbors, row, first, -⟩
  have expected : neighbors = [4, 4, 7] := Except.ok.inj (row.symm.trans rfl)
  subst expected
  have half : (Binary64.ofNat 1).divide (Binary64.ofNat 2) = ⟨0x3fe0000000000000⟩ := by
    decide +kernel
  exact ⟨report, recalls, evaluated, recallsOk, length, first.trans (congrArg some half)⟩

end RecallEvaluator

end RangeRecall
