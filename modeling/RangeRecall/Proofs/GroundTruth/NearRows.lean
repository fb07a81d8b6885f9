import RangeRecall.Proofs.GroundTruth.RowLists
import RangeRecall.Proofs.GroundTruth.Scan

/-! The near rows in an exact ground truth. A query has one row in it, with the rows of the base
that are nearer than the threshold, in order and with their distances. Their numbers are kept in
four-byte words: they are the true numbers as far as those are words, and what is left of them
otherwise. Only the number of all neighbors together is limited, not the number of rows. -/

namespace RangeRecall

namespace DistanceMetric

/-- What a vector measures as its distance from the row of a batch with the given number. -/
def MeasuresRow (metric : DistanceMetric) (vector : List Binary32) (batch : VectorBatch)
    (row : Nat) (distance : Binary32) : Prop :=
  ∃ other, batch.rows[row]? = some other ∧ metric.distance vector other = .ok distance

variable {metric : DistanceMetric} {threshold : Binary32} {vector : List Binary32}
  {batch : VectorBatch}

theorem measuresRow_iff (comparable : ∀ other ∈ batch.rows, vector.length = other.length)
    {row : Nat} {distance : Binary32} :
    metric.MeasuresRow vector batch row distance ↔
      row < batch.count ∧ metric.measure vector (batch.row row) = distance := by
  constructor
  · rintro ⟨other, found, measured⟩
    have inside : row < batch.count := by
      have bound := (List.getElem?_eq_some_iff.mp found).1
      rwa [VectorBatch.length_rows] at bound
    rw [VectorBatch.getElem?_rows inside] at found
    cases found
    rw [distance_eq_ok _ (comparable _
      (List.mem_of_getElem? (VectorBatch.getElem?_rows inside)))] at measured
    exact ⟨inside, Except.ok.inj measured⟩
  · rintro ⟨inside, rfl⟩
    have found := VectorBatch.getElem?_rows inside
    exact ⟨_, found, distance_eq_ok _ (comparable _ (List.mem_of_getElem? found))⟩

theorem mem_nearRows_iff (comparable : ∀ other ∈ batch.rows, vector.length = other.length)
    {row : Nat} :
    row ∈ metric.nearRows threshold vector batch ↔
      ∃ distance, metric.MeasuresRow vector batch row distance ∧
        distance.isLess threshold = true := by
  simp only [mem_nearRows, measuresRow_iff comparable, and_assoc]
  constructor
  · rintro ⟨inside, near⟩
    exact ⟨_, inside, rfl, near⟩
  · rintro ⟨_, inside, rfl, near⟩
    exact ⟨inside, near⟩

end DistanceMetric

namespace GroundTruth

open DistanceMetric

variable {base queries : VectorBatch} {threshold : Binary32} {truth : GroundTruth}

/-! ## Success and failure -/

def nearPairs (base queries : VectorBatch) (threshold : Binary32) : Nat :=
  (queries.rows.flatMap fun vector => euclidean.nearRows threshold vector base).length

theorem length_flatten_exactRows :
    (queries.rows.map (exactRow threshold base)).flatten.length =
      nearPairs base queries threshold := by
  have lengths : (List.length ∘ exactRow threshold base) =
      List.length ∘ fun vector => euclidean.nearRows threshold vector base := by
    funext vector
    rw [Function.comp_apply, exactRow_eq, List.length_map]
    rfl
  rw [nearPairs, List.flatMap_def, List.length_flatten, List.length_flatten,
    List.map_map, List.map_map, lengths]

theorem exact_of_tooMany
    (agrees : base.count = 0 ∨ queries.count = 0 ∨ base.dimension = queries.dimension)
    (tooMany : fieldLimit ≤ nearPairs base queries threshold) :
    exact base queries threshold = .error (.error (.invalidParameter .tooManyNeighbors)) := by
  rw [← length_flatten_exactRows] at tooMany
  rw [exact_eq_ofRows agrees, ofRows_of_tooMany tooMany]
  rfl

theorem exists_exact_iff :
    (∃ truth, exact base queries threshold = .ok truth) ↔
      (base.count = 0 ∨ queries.count = 0 ∨ base.dimension = queries.dimension) ∧
        nearPairs base queries threshold < fieldLimit := by
  constructor
  · rintro ⟨truth, built⟩
    have agrees := dimension_of_exact_eq_ok built
    refine ⟨agrees, Nat.lt_of_not_le fun tooMany => ?_⟩
    cases built.symm.trans (exact_of_tooMany agrees tooMany)
  · rintro ⟨agrees, fits⟩
    rw [← length_flatten_exactRows] at fits
    exact exists_exact agrees fits

theorem exact_eq_error_iff
    (agrees : base.count = 0 ∨ queries.count = 0 ∨ base.dimension = queries.dimension)
    {failure : Failure Error} :
    exact base queries threshold = .error failure ↔
      fieldLimit ≤ nearPairs base queries threshold ∧
        failure = .error (.invalidParameter .tooManyNeighbors) := by
  by_cases fits : nearPairs base queries threshold < fieldLimit
  · obtain ⟨truth, built⟩ := exists_exact_iff.mpr ⟨agrees, fits⟩
    refine ⟨fun failed => ?_, fun tooMany => absurd tooMany.1 (Nat.not_le.mpr fits)⟩
    cases built.symm.trans failed
  · have tooMany := Nat.le_of_not_lt fits
    rw [exact_of_tooMany agrees tooMany, Except.error.injEq]
    exact ⟨fun failed => ⟨tooMany, failed.symm⟩, fun named => named.2.symm⟩

theorem exact_ne_fault (fault : Fault) :
    exact base queries threshold ≠ .error (.fault fault) := by
  intro failed
  by_cases agrees : base.count = 0 ∨ queries.count = 0 ∨ base.dimension = queries.dimension
  · cases ((exact_eq_error_iff agrees).mp failed).2
  · cases (exact_of_mismatch agrees).symm.trans failed

/-! ## Rows -/

theorem row_of_exact (built : exact base queries threshold = .ok truth) {query : Nat}
    {vector : List Binary32} (isQuery : queries.rows[query]? = some vector) :
    truth.neighbors query =
        .ok ((euclidean.nearRows threshold vector base).map UInt32.ofNat) ∧
      truth.distances query =
        .ok ((euclidean.nearRows threshold vector base).map fun row =>
          euclidean.measure vector (base.row row)) := by
  have compresses := compresses_of_ofRows (ofRows_of_exact_eq_ok built)
  obtain ⟨inside, rfl⟩ := List.getElem?_eq_some_iff.mp isQuery
  have isRow : query < (queries.rows.map (exactRow threshold base)).length := by
    rwa [List.length_map]
  have neighbors := compresses.neighbors query isRow
  have distances := compresses.distances query isRow
  rw [List.getElem_map, exactRow_eq, List.map_map] at neighbors distances
  exact ⟨neighbors, distances⟩

theorem comparable_of_exact (built : exact base queries threshold = .ok truth) {query : Nat}
    {vector : List Binary32} (isQuery : queries.rows[query]? = some vector) :
    ∀ other ∈ base.rows, vector.length = other.length :=
  comparable_of_dimension (dimension_of_exact_eq_ok built) vector (List.mem_of_getElem? isQuery)

theorem map_toNat_ofNat (rows : List Nat) :
    (rows.map UInt32.ofNat).map UInt32.toNat = rows.map (· % fieldLimit) := by
  rw [List.map_map]
  exact List.map_congr_left fun _ _ => UInt32.toNat_ofNat

theorem map_toNat_ofNat_of_lt {rows : List Nat} (words : ∀ row ∈ rows, row < fieldLimit) :
    (rows.map UInt32.ofNat).map UInt32.toNat = rows := by
  rw [map_toNat_ofNat]
  exact (List.map_congr_left fun row member => Nat.mod_eq_of_lt (words row member)).trans
    (List.map_id' rows)

/-! ## Row numbers past four-byte words -/

/-- Batches that agree have a ground truth exactly if their near pairs can be counted in a word,
however many rows the base has, and otherwise an error says which limit was broken. The row of a
query lists its near rows in order, each by what a word keeps of its number. As long as no near row
has a number past the words, different near rows have different identifiers, and these are the
numbers of exactly the rows that are measured to be nearer than the threshold. -/
theorem neighbors_keep_words_of_rows (base queries : VectorBatch) (threshold : Binary32) :
    let agrees := base.count = 0 ∨ queries.count = 0 ∨ base.dimension = queries.dimension
    ((∃ truth, exact base queries threshold = .ok truth) ↔
      agrees ∧ nearPairs base queries threshold < fieldLimit) ∧
    (agrees → fieldLimit ≤ nearPairs base queries threshold →
      exact base queries threshold = .error (.error (.invalidParameter .tooManyNeighbors))) ∧
    (∀ fault, exact base queries threshold ≠ .error (.fault fault)) ∧
    ∀ truth, exact base queries threshold = .ok truth →
      ∀ query vector, queries.rows[query]? = some vector →
        let near := euclidean.nearRows threshold vector base
        ∃ ids, truth.neighbors query = .ok ids ∧
          ids.map UInt32.toNat = near.map (· % fieldLimit) ∧
          ((∀ row ∈ near, row < fieldLimit) →
            ids.Nodup ∧ ∀ row, (∃ id ∈ ids, id.toNat = row) ↔
              ∃ distance, euclidean.MeasuresRow vector base row distance ∧
                distance.isLess threshold = true) := by
  intro agrees
  refine ⟨exists_exact_iff, exact_of_tooMany, exact_ne_fault, ?_⟩
  intro truth built query vector isQuery near
  refine ⟨_, (row_of_exact built isQuery).1, map_toNat_ofNat near, fun words => ?_⟩
  have numbers := map_toNat_ofNat_of_lt words
  constructor
  · have distinct : near.Nodup := pairwise_nearRows.imp Nat.ne_of_lt
    rw [← numbers] at distinct
    exact (List.pairwise_map.mp distinct).imp fun differ same => differ (congrArg _ same)
  · intro row
    rw [← List.mem_map, numbers, mem_nearRows_iff (comparable_of_exact built isQuery)]

/-! ### A near row behind as many far ones as there are words -/

def farThenNear (far : Nat) : List Binary32 :=
  List.replicate far ⟨0x40000000⟩ ++ [⟨0⟩]

theorem length_farThenNear (far : Nat) : (farThenNear far).length = far + 1 := by
  rw [farThenNear, List.length_append, List.length_replicate, List.length_singleton]

theorem row_of_far {far row : Nat} (before : row < far) :
    (Benchmark.onLine (farThenNear far)).row row = [⟨0x40000000⟩] := by
  have inside : row < (farThenNear far).length := by
    rw [length_farThenNear]
    exact Nat.lt_add_right 1 before
  have isFar : row < (List.replicate far (⟨0x40000000⟩ : Binary32)).length := by
    rwa [List.length_replicate]
  rw [Benchmark.row_onLine inside]
  simp only [farThenNear, List.getElem_append_left isFar, List.getElem_replicate]

theorem row_of_near (far : Nat) : (Benchmark.onLine (farThenNear far)).row far = [⟨0⟩] := by
  have inside : far < (farThenNear far).length := by
    rw [length_farThenNear]
    exact Nat.lt_succ_self far
  rw [Benchmark.row_onLine inside]
  simp [farThenNear]

theorem nearRows_farThenNear (far : Nat) :
    euclidean.nearRows ⟨0x3f800000⟩ [⟨0⟩] (Benchmark.onLine (farThenNear far)) = [far] := by
  have none : (List.range far).filter (fun row =>
      (euclidean.measure [⟨0⟩] ((Benchmark.onLine (farThenNear far)).row row)).isLess
        ⟨0x3f800000⟩) = [] := by
    refine List.filter_eq_nil_iff.mpr fun row member => ?_
    rw [row_of_far (List.mem_range.mp member)]
    decide +kernel
  have near : (euclidean.measure [⟨0⟩] ((Benchmark.onLine (farThenNear far)).row far)).isLess
      ⟨0x3f800000⟩ = true := by
    rw [row_of_near]
    decide +kernel
  have count : (Benchmark.onLine (farThenNear far)).count = far + 1 := length_farThenNear far
  rw [nearRows, count, List.range_succ, List.filter_append, none, List.filter_cons, if_pos near]
  rfl

theorem exists_exact_farThenNear (far : Nat) :
    ∃ truth, exact (Benchmark.onLine (farThenNear far)) (Benchmark.onLine [⟨0⟩]) ⟨0x3f800000⟩ =
      .ok truth := by
  refine exists_exact_iff.mpr ⟨.inr (.inr rfl), ?_⟩
  have only : (Benchmark.onLine [⟨0⟩]).rows = [[⟨0⟩]] := rfl
  have one : nearPairs (Benchmark.onLine (farThenNear far)) (Benchmark.onLine [⟨0⟩])
      ⟨0x3f800000⟩ = 1 := by
    rw [nearPairs, only, List.flatMap_cons, nearRows_farThenNear]
    rfl
  rw [one]
  decide

/-- Behind three far points the near one is listed by its number. Behind as many far points as
there are words it is listed as number zero, but the point with that number is far. -/
theorem last_row_named_by_word :
    (∃ truth ids, exact (Benchmark.onLine (farThenNear 3)) (Benchmark.onLine [⟨0⟩])
        ⟨0x3f800000⟩ = .ok truth ∧
      truth.neighbors 0 = .ok ids ∧ ids.Nodup ∧ ∃ id ∈ ids, id.toNat = 3) ∧
    ∃ truth, exact (Benchmark.onLine (farThenNear fieldLimit)) (Benchmark.onLine [⟨0⟩])
        ⟨0x3f800000⟩ = .ok truth ∧
      truth.neighbors 0 = .ok [0] ∧
      ¬∃ distance, euclidean.MeasuresRow [⟨0⟩] (Benchmark.onLine (farThenNear fieldLimit)) 0
        distance ∧ distance.isLess ⟨0x3f800000⟩ = true := by
  have isQuery : (Benchmark.onLine [⟨0⟩]).rows[0]? = some [⟨0⟩] := rfl
  constructor
  · obtain ⟨-, -, -, lists⟩ := neighbors_keep_words_of_rows
      (Benchmark.onLine (farThenNear 3)) (Benchmark.onLine [⟨0⟩]) ⟨0x3f800000⟩
    obtain ⟨truth, built⟩ := exists_exact_farThenNear 3
    obtain ⟨ids, row, -, named⟩ := lists truth built 0 [⟨0⟩] isQuery
    rw [nearRows_farThenNear] at named
    obtain ⟨distinct, numbers⟩ := named (by decide)
    refine ⟨truth, ids, built, row, distinct, (numbers 3).mpr ?_⟩
    rw [← mem_nearRows_iff (comparable_of_exact built isQuery), nearRows_farThenNear]
    exact List.mem_singleton.mpr rfl
  · obtain ⟨-, -, -, lists⟩ := neighbors_keep_words_of_rows
      (Benchmark.onLine (farThenNear fieldLimit)) (Benchmark.onLine [⟨0⟩]) ⟨0x3f800000⟩
    obtain ⟨truth, built⟩ := exists_exact_farThenNear fieldLimit
    obtain ⟨ids, row, numbers, -⟩ := lists truth built 0 [⟨0⟩] isQuery
    have zero : ids = [0] := by
      rw [nearRows_farThenNear] at numbers
      have same : ids.map UInt32.toNat = [(0 : UInt32)].map UInt32.toNat := numbers
      exact (List.map_inj_right fun _ _ => UInt32.toNat.inj).mp same
    refine ⟨truth, built, zero ▸ row, ?_⟩
    rw [← mem_nearRows_iff (comparable_of_exact built isQuery), nearRows_farThenNear,
      List.mem_singleton]
    decide

end GroundTruth

end RangeRecall
