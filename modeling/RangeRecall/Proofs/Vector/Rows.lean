import RangeRecall.Query.Workload

/-! The vectors of a batch by position. The list of rows, the access by index and the queries
made from a batch all see the same slice of the components. -/

namespace RangeRecall

namespace VectorBatch

def row (batch : VectorBatch) (index : Nat) : List Binary32 :=
  (batch.components.drop (index * batch.dimension)).take batch.dimension

theorem pieces_eq_map (length : Nat) (items : List α) (count : Nat) :
    pieces length count items =
      (List.range count).map fun index => (items.drop (index * length)).take length := by
  induction count generalizing items with
  | zero => rfl
  | succ count induction =>
      rw [pieces, induction, List.range_succ_eq_map, List.map_cons, List.map_map]
      simp only [Nat.zero_mul, List.drop_zero]
      congr 1
      apply List.map_congr_left
      intro index _
      have shifted : (index + 1) * length = length + index * length := by
        rw [Nat.succ_mul, Nat.add_comm]
      simp only [Function.comp_apply, List.drop_drop, Nat.succ_eq_add_one, shifted]

theorem rows_eq_map (batch : VectorBatch) : batch.rows = (List.range batch.count).map batch.row :=
  pieces_eq_map batch.dimension batch.components batch.count

@[simp] theorem length_rows (batch : VectorBatch) : batch.rows.length = batch.count := by
  simp [rows_eq_map]

theorem getElem?_rows {batch : VectorBatch} {index : Nat} (inside : index < batch.count) :
    batch.rows[index]? = some (batch.row index) := by
  simp [rows_eq_map, inside]

theorem zipIdx_rows (batch : VectorBatch) :
    batch.rows.zipIdx = (List.range batch.count).map fun row => (batch.row row, row) := by
  apply List.ext_getElem
  · simp
  · intro index _ _
    simp [rows_eq_map]

theorem row_end_le {batch : VectorBatch} {index : Nat} (inside : index < batch.count) :
    index * batch.dimension + batch.dimension ≤ batch.components.length := by
  rw [batch.length_components, ← Nat.succ_mul]
  exact Nat.mul_le_mul_right _ inside

theorem length_row {batch : VectorBatch} {index : Nat} (inside : index < batch.count) :
    (batch.row index).length = batch.dimension := by
  have room := row_end_le inside
  simp only [row, List.length_take, List.length_drop]
  omega

theorem length_of_mem_rows {batch : VectorBatch} {vector : List Binary32}
    (member : vector ∈ batch.rows) : vector.length = batch.dimension := by
  rw [rows_eq_map] at member
  rcases List.mem_map.mp member with ⟨index, inside, rfl⟩
  exact length_row (List.mem_range.mp inside)

theorem vectorAt_eq_row {batch : VectorBatch} {index : Nat} (inside : index < batch.count) :
    batch.vectorAt index = .ok (batch.row index) := by
  simp only [vectorAt, if_pos (row_end_le inside), row]

end VectorBatch

def Benchmark.onLine (components : List Binary32) : VectorBatch where
  count := components.length
  dimension := 1
  components := components
  length_components := by rw [Nat.mul_one]
  count_eq_zero := fun zero => absurd zero (by decide)

theorem Benchmark.row_onLine {components : List Binary32} {index : Nat}
    (inside : index < components.length) :
    (onLine components).row index = [components[index]] := by
  have single : (components.drop (index * 1)).take 1 = [components[index]] := by
    rw [Nat.mul_one, List.drop_eq_getElem_cons inside, List.take_succ_cons, List.take_zero]
  exact single

namespace Query

theorem numbered_eq_mapIdx (strategy : ScanStrategy) (kind : QueryKind)
    (vectors : List (List Binary32)) (start : Nat) :
    numbered strategy kind start vectors = vectors.mapIdx fun position vector =>
      { index := start + position, strategy := strategy, kind := kind, vector := vector } := by
  induction vectors generalizing start with
  | nil => rfl
  | cons vector rest induction =>
      rw [numbered, induction, List.mapIdx_cons]
      simp only [Nat.add_zero, Nat.add_assoc, Nat.add_comm 1]

theorem numbered_rows_eq_map (strategy : ScanStrategy) (kind : QueryKind) (batch : VectorBatch) :
    numbered strategy kind 0 batch.rows = (List.range batch.count).map fun index =>
      { index := index, strategy := strategy, kind := kind, vector := batch.row index } := by
  rw [numbered_eq_mapIdx, VectorBatch.rows_eq_map]
  apply List.ext_getElem
  · simp
  · intro index _ _
    simp

theorem rangeQueries_eq_map (batch : VectorBatch) (threshold : Binary32)
    (strategy : ScanStrategy) :
    rangeQueries batch threshold strategy =
      (List.range batch.count).map fun index =>
        range index (batch.row index) threshold strategy :=
  numbered_rows_eq_map strategy (.range threshold) batch

theorem topKQueries_eq_map (batch : VectorBatch) (k : Nat) (filter : Option IdFilter)
    (strategy : ScanStrategy) :
    topKQueries batch k filter strategy = (List.range batch.count).map fun index =>
      { index := index, strategy := strategy, kind := .topK k filter,
        vector := batch.row index } :=
  numbered_rows_eq_map strategy (.topK k filter) batch

@[simp] theorem length_rangeQueries (batch : VectorBatch) (threshold : Binary32)
    (strategy : ScanStrategy) :
    (rangeQueries batch threshold strategy).length = batch.count := by
  simp [rangeQueries_eq_map]

theorem strategy_of_mem_numbered {strategy : ScanStrategy} {kind : QueryKind} {start : Nat}
    {vectors : List (List Binary32)} {query : Query}
    (member : query ∈ numbered strategy kind start vectors) : query.strategy = strategy := by
  rw [numbered_eq_mapIdx] at member
  rcases List.mem_mapIdx.mp member with ⟨position, _, rfl⟩
  rfl

end Query

end RangeRecall
