import RangeRecall.GroundTruth.Basic
import RangeRecall.Proofs.Failure
import RangeRecall.Proofs.GroundTruth.Rows
import RangeRecall.Proofs.Vector.Rows
import RangeRecall.Store.Memory

/-! The rows within a threshold. The exact ground truth and the search of a store are two scans
over the same vectors, and both list exactly the rows that are strictly nearer than the
threshold, in row order; they differ in how they number them. -/

namespace RangeRecall

/-- The numbers of the vectors strictly nearer to a query than a threshold, with their
distances, in the order of the vectors. The first vector has the number `start`. -/
def DistanceMetric.within (metric : DistanceMetric) (threshold : Binary32)
    (query : List Binary32) (start : Nat) (vectors : List (List Binary32)) :
    List (Nat × Binary32) :=
  (vectors.zipIdx start).filterMap fun (vector, number) =>
    if (metric.measure query vector).isLess threshold then
      some (number, metric.measure query vector)
    else none

namespace DistanceMetric

variable {metric : DistanceMetric} {threshold : Binary32} {query : List Binary32} {start : Nat}

theorem distance_eq_ok (metric : DistanceMetric) {left right : List Binary32}
    (comparable : left.length = right.length) :
    metric.distance left right = .ok (metric.measure left right) :=
  if_pos comparable

theorem within_cons (vector : List Binary32) (rest : List (List Binary32)) :
    metric.within threshold query start (vector :: rest) =
      if (metric.measure query vector).isLess threshold then
        (start, metric.measure query vector) :: metric.within threshold query (start + 1) rest
      else metric.within threshold query (start + 1) rest := by
  unfold within
  rw [List.zipIdx_cons, List.filterMap_cons]
  split <;> simp_all

def nearRows (metric : DistanceMetric) (threshold : Binary32) (query : List Binary32)
    (batch : VectorBatch) : List Nat :=
  (List.range batch.count).filter fun row =>
    (metric.measure query (batch.row row)).isLess threshold

theorem mem_nearRows {batch : VectorBatch} {row : Nat} :
    row ∈ metric.nearRows threshold query batch ↔
      row < batch.count ∧ (metric.measure query (batch.row row)).isLess threshold = true := by
  rw [nearRows, List.mem_filter, List.mem_range]

theorem pairwise_nearRows {batch : VectorBatch} :
    (metric.nearRows threshold query batch).Pairwise (· < ·) :=
  List.pairwise_lt_range.filter _

theorem length_nearRows_le {batch : VectorBatch} :
    (metric.nearRows threshold query batch).length ≤ batch.count := by
  have few := List.length_filter_le
    (fun row => (metric.measure query (batch.row row)).isLess threshold) (List.range batch.count)
  rwa [List.length_range] at few

theorem within_rows (batch : VectorBatch) :
    metric.within threshold query 0 batch.rows =
      (metric.nearRows threshold query batch).map fun row =>
        (row, metric.measure query (batch.row row)) := by
  rw [within, VectorBatch.zipIdx_rows, List.filterMap_map, nearRows, ← List.filterMap_eq_map,
    List.filterMap_filter]
  rfl

end DistanceMetric

/-! ## The scan of the exact ground truth -/

namespace GroundTruth

def exactRow (threshold : Binary32) (base : VectorBatch) (query : List Binary32) :
    List (UInt32 × Binary32) :=
  (DistanceMetric.euclidean.within threshold query 0 base.rows).map fun hit =>
    (UInt32.ofNat hit.1, hit.2)

theorem exactRow_eq (threshold : Binary32) (base : VectorBatch) (query : List Binary32) :
    exactRow threshold base query =
      (DistanceMetric.euclidean.nearRows threshold query base).map fun row =>
        (UInt32.ofNat row, DistanceMetric.euclidean.measure query (base.row row)) := by
  rw [exactRow, DistanceMetric.within_rows, List.map_map]
  rfl

theorem rowsWithin_eq {threshold : Binary32} {query : List Binary32}
    {vectors : List (List Binary32)}
    (comparable : ∀ vector ∈ vectors, query.length = vector.length) (start : Nat) :
    rowsWithin threshold query start vectors =
      .ok ((DistanceMetric.euclidean.within threshold query start vectors).map fun hit =>
        (UInt32.ofNat hit.1, hit.2)) := by
  induction vectors generalizing start with
  | nil => rfl
  | cons vector rest induction =>
      have later := induction
        (fun other member => comparable other (List.mem_cons_of_mem _ member)) (start + 1)
      have measured := DistanceMetric.euclidean.distance_eq_ok
        (comparable vector List.mem_cons_self)
      rw [rowsWithin, measured, later, DistanceMetric.within_cons]
      change Except.ok _ = _
      split <;> rfl

/-- Every vector of one batch can be measured against every vector of the other. -/
def Comparable (base queries : VectorBatch) : Prop :=
  ∀ query ∈ queries.rows, ∀ vector ∈ base.rows, query.length = vector.length

theorem comparable_of_dimension {base queries : VectorBatch}
    (agrees : base.count = 0 ∨ queries.count = 0 ∨ base.dimension = queries.dimension) :
    Comparable base queries := by
  intro query queryMember vector vectorMember
  rcases agrees with noBase | noQueries | same
  · simp [VectorBatch.rows_eq_map, noBase] at vectorMember
  · simp [VectorBatch.rows_eq_map, noQueries] at queryMember
  · rw [VectorBatch.length_of_mem_rows queryMember, VectorBatch.length_of_mem_rows vectorMember,
      same]

theorem exact_eq_ofRows {base queries : VectorBatch} {threshold : Binary32}
    (agrees : base.count = 0 ∨ queries.count = 0 ∨ base.dimension = queries.dimension) :
    exact base queries threshold =
      (ofRows threshold (queries.rows.map (exactRow threshold base))).mapError .error := by
  have scanned : (queries.rows.mapM fun query =>
        (liftM (rowsWithin threshold query 0 base.rows) : Attempt _)) =
      .ok (queries.rows.map (exactRow threshold base)) := by
    refine Failure.mapM_eq_ok fun query member => ?_
    rw [rowsWithin_eq (comparable_of_dimension agrees query member)]
    rfl
  have accepted : ¬(!base.isEmpty && !queries.isEmpty &&
      base.dimension ≠ queries.dimension) = true := by
    simp only [VectorBatch.isEmpty, Bool.and_eq_true, Bool.not_eq_true', beq_eq_false_iff_ne,
      decide_eq_true_eq, not_and]
    omega
  unfold exact
  rw [if_neg accepted]
  change (queries.rows.mapM _ >>= _) = _
  rw [scanned]
  rfl

theorem exact_of_mismatch {base queries : VectorBatch} {threshold : Binary32}
    (differs : ¬(base.count = 0 ∨ queries.count = 0 ∨ base.dimension = queries.dimension)) :
    exact base queries threshold = .error (.error
      (.invalidParameter (.dimensionMismatch base.dimension queries.dimension))) := by
  have refused : (!base.isEmpty && !queries.isEmpty &&
      base.dimension ≠ queries.dimension) = true := by
    simp only [VectorBatch.isEmpty, Bool.and_eq_true, Bool.not_eq_true', beq_eq_false_iff_ne,
      decide_eq_true_eq]
    omega
  unfold exact
  rw [if_pos refused]
  rfl

theorem dimension_of_exact_eq_ok {base queries : VectorBatch} {threshold : Binary32}
    {truth : GroundTruth} (built : exact base queries threshold = .ok truth) :
    base.count = 0 ∨ queries.count = 0 ∨ base.dimension = queries.dimension := by
  refine Decidable.byContradiction fun differs => ?_
  cases built.symm.trans (exact_of_mismatch differs)

theorem ofRows_of_exact_eq_ok {base queries : VectorBatch} {threshold : Binary32}
    {truth : GroundTruth} (built : exact base queries threshold = .ok truth) :
    ofRows threshold (queries.rows.map (exactRow threshold base)) = .ok truth := by
  rw [exact_eq_ofRows (dimension_of_exact_eq_ok built)] at built
  cases rows : ofRows threshold (queries.rows.map (exactRow threshold base)) with
  | error cause =>
      rw [rows] at built
      cases built
  | ok result =>
      rw [rows] at built
      cases built
      rfl

theorem queryCount_exact {base queries : VectorBatch} {threshold : Binary32}
    {truth : GroundTruth} (built : exact base queries threshold = .ok truth) :
    truth.queryCount = queries.count := by
  rw [queryCount_ofRows (ofRows_of_exact_eq_ok built), List.length_map, VectorBatch.length_rows]

theorem exists_exact {base queries : VectorBatch} {threshold : Binary32}
    (agrees : base.count = 0 ∨ queries.count = 0 ∨ base.dimension = queries.dimension)
    (fits : (queries.rows.map (exactRow threshold base)).flatten.length < fieldLimit) :
    ∃ truth, exact base queries threshold = .ok truth := by
  rcases exists_ofRows threshold fits with ⟨truth, built⟩
  refine ⟨truth, ?_⟩
  rw [exact_eq_ofRows agrees, built]
  rfl

theorem length_exactRow_le (threshold : Binary32) (base : VectorBatch) (query : List Binary32) :
    (exactRow threshold base query).length ≤ base.count := by
  rw [exactRow_eq, List.length_map]
  exact DistanceMetric.length_nearRows_le

end GroundTruth

/-! ## The scan of a store -/

namespace MemoryStore

theorem idOf_eq {store : MemoryStore} {row : Nat} (fits : row + store.idBase.toNat < wordLimit) :
    store.idOf row = .ok (UInt64.ofNat (row + store.idBase.toNat)) := by
  have rowFits : row < 2 ^ 64 := by
    simp only [wordLimit] at fits
    omega
  have rowValue : (UInt64.ofNat row).toNat = row := UInt64.toNat_ofNat_of_lt' rowFits
  have sum : UInt64.ofNat row + store.idBase = UInt64.ofNat (row + store.idBase.toNat) := by
    rw [UInt64.ofNat_add, UInt64.ofNat_toNat]
  rw [idOf, addWords, rowValue, if_pos fits, sum]

theorem idsWithin_eq_mapM {store : MemoryStore} {threshold : Binary32} {query : List Binary32}
    {vectors : List (List Binary32)} {start : Nat}
    (comparable : ∀ vector ∈ vectors, query.length = vector.length) :
    store.idsWithin query threshold start vectors =
      (store.metric.within threshold query start vectors).mapM fun hit => store.idOf hit.1 := by
  induction vectors generalizing start with
  | nil => rfl
  | cons vector rest induction =>
      have later := @induction (start + 1)
        (fun other member => comparable other (List.mem_cons_of_mem _ member))
      have measured := store.metric.distance_eq_ok (comparable vector List.mem_cons_self)
      rw [idsWithin, measured, later, DistanceMetric.within_cons]
      change (if _ then _ else _) = _
      split
      · rw [List.mapM_cons]
      · rfl

theorem rangeSearch_eq {store : MemoryStore} {threshold : Binary32} {query : List Binary32}
    (comparable : ∀ vector ∈ store.base.rows, query.length = vector.length)
    (numbered : ∀ row ∈ store.metric.nearRows threshold query store.base,
      row + store.idBase.toNat < wordLimit) :
    store.rangeSearch query threshold =
      .ok ((store.metric.nearRows threshold query store.base).map fun row =>
        UInt64.ofNat (row + store.idBase.toNat)) := by
  have identified : ∀ hit ∈ store.metric.within threshold query 0 store.base.rows,
      store.idOf hit.1 = .ok (UInt64.ofNat (hit.1 + store.idBase.toNat)) := by
    intro hit member
    rw [DistanceMetric.within_rows] at member
    obtain ⟨row, near, rfl⟩ := List.mem_map.mp member
    exact idOf_eq (numbered row near)
  rw [rangeSearch, idsWithin_eq_mapM comparable, Failure.mapM_eq_ok identified,
    DistanceMetric.within_rows, List.map_map]
  rfl

end MemoryStore

end RangeRecall
