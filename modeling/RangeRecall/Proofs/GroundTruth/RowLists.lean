import RangeRecall.Proofs.Failure
import RangeRecall.Proofs.GroundTruth.Encoding
import RangeRecall.Proofs.GroundTruth.Rows

/-! Ground truths and lists of rows are two forms of the same thing. Every ground truth can be cut
at its offsets into rows that make it again, so what holds of a ground truth made from rows holds
of all of them: the rows lie next to each other and leave nothing out. -/

namespace RangeRecall

namespace GroundTruth

/-! ## Lists cut at places -/

def cut (items : List α) : (places : List Nat) → List (List α)
  | first :: second :: rest =>
    (items.drop first).take (second - first) :: cut items (second :: rest)
  | _ => []

theorem flatten_cut {items : List α} {first : Nat} {rest : List Nat}
    (ascends : (first :: rest).Pairwise (· ≤ ·))
    (last : (first :: rest).getLast? = some items.length) :
    (cut items (first :: rest)).flatten = items.drop first := by
  induction rest generalizing first with
  | nil =>
      have atEnd : first = items.length := Option.some.inj last
      rw [atEnd, List.drop_length]
      rfl
  | cons second rest induction =>
      have parts := List.pairwise_cons.mp ascends
      have step : first ≤ second := parts.1 second List.mem_cons_self
      have behind : items.drop second = (items.drop first).drop (second - first) := by
        rw [List.drop_drop, Nat.add_sub_cancel' step]
      have later : (cut items (second :: rest)).flatten = items.drop second :=
        induction parts.2 last
      rw [cut, List.flatten_cons, later, behind, List.take_append_drop]

theorem rowEnds_cut {items : List α} {first : Nat} {rest : List Nat}
    (ascends : (first :: rest).Pairwise (· ≤ ·)) (within : ∀ place ∈ rest, place ≤ items.length) :
    rowEnds first (cut items (first :: rest)) = rest := by
  induction rest generalizing first with
  | nil => rfl
  | cons second rest induction =>
      have parts := List.pairwise_cons.mp ascends
      have step : first ≤ second := parts.1 second List.mem_cons_self
      have room : second ≤ items.length := within second List.mem_cons_self
      have size : first + ((items.drop first).take (second - first)).length = second := by
        rw [List.length_take, List.length_drop]
        omega
      have later : rowEnds second (cut items (second :: rest)) = rest :=
        induction parts.2 fun place member => within place (List.mem_cons_of_mem _ member)
      rw [cut, rowEnds, size, later]

/-! ## The rows of a ground truth -/

def row (truth : GroundTruth) (query : Nat) : Except Fault (List (UInt32 × Binary32)) := do
  let neighbors ← truth.neighbors query
  let distances ← truth.distances query
  return neighbors.zip distances

def rows (truth : GroundTruth) : Except Fault (List (List (UInt32 × Binary32))) :=
  (List.range truth.queryCount).mapM truth.row

/-- Every query has one of these rows, and one behind another they are all that there is. -/
structure Compresses (truth : GroundTruth) (rows : List (List (UInt32 × Binary32))) : Prop where
  length : rows.length = truth.queryCount
  neighbors : ∀ (query : Nat) (inside : query < rows.length),
    truth.neighbors query = .ok (rows[query].map Prod.fst)
  distances : ∀ (query : Nat) (inside : query < rows.length),
    truth.distances query = .ok (rows[query].map Prod.snd)
  allNeighbors : (rows.map (List.map Prod.fst)).flatten = truth.neighborIds
  allDistances : (rows.map (List.map Prod.snd)).flatten = truth.neighborDistances

variable {threshold : Binary32} {truth : GroundTruth}
  {lists : List (List (UInt32 × Binary32))}

theorem compresses_of_ofRows (built : ofRows threshold lists = .ok truth) :
    truth.Compresses lists := by
  have parts := ofRows_eq_ok built
  constructor
  · exact (queryCount_ofRows built).symm
  · exact fun _ inside => neighbors_ofRows built inside
  · exact fun _ inside => distances_ofRows built inside
  · rw [parts.2.2.2.1, List.map_flatten]
  · rw [parts.2.2.2.2, List.map_flatten]

theorem Compresses.rows_eq (compresses : truth.Compresses lists) : truth.rows = .ok lists := by
  have each : ∀ query ∈ List.range truth.queryCount,
      truth.row query = .ok (lists[query]?.getD []) := by
    intro query member
    have inside : query < lists.length := compresses.length ▸ List.mem_range.mp member
    have whole : (lists[query].map Prod.fst).zip (lists[query].map Prod.snd) = lists[query] := by
      have unzipped := List.zip_unzip lists[query]
      rwa [List.unzip_eq_map] at unzipped
    rw [row, compresses.neighbors query inside, compresses.distances query inside,
      List.getElem?_eq_getElem inside]
    exact congrArg Except.ok whole
  have inOrder : (List.range truth.queryCount).map (fun query => lists[query]?.getD []) =
      lists := by
    apply List.ext_getElem
    · rw [List.length_map, List.length_range, compresses.length]
    · intro query _ inside
      simp [inside]
  rw [rows, Failure.mapM_eq_ok each, inOrder]

theorem neighborIds_lt (truth : GroundTruth) : truth.neighborIds.length < fieldLimit := by
  rcases Option.map_eq_some_iff.mp truth.rowOffsets.2.2 with ⟨stop, _, total⟩
  rw [← total]
  exact stop.toNat_lt

theorem ofRows_cut (truth : GroundTruth) :
    ofRows truth.threshold (cut (truth.neighborIds.zip truth.neighborDistances)
      (truth.offsets.map UInt32.toNat)) = .ok truth := by
  rcases truth.rowOffsets with ⟨head, increasing, total⟩
  have fewer : truth.neighborIds.length ≤ truth.neighborDistances.length :=
    Nat.le_of_eq truth.length_distances.symm
  have size : (truth.neighborIds.zip truth.neighborDistances).length =
      truth.neighborIds.length := by
    rw [List.length_zip, Nat.min_eq_left fewer]
  obtain ⟨rest, places⟩ : ∃ rest, truth.offsets.map UInt32.toNat = 0 :: rest := by
    rcases List.head?_eq_some_iff.mp head with ⟨others, offsets⟩
    exact ⟨_, by rw [offsets]; rfl⟩
  have ascends : (0 :: rest).Pairwise (· ≤ ·) := by
    rw [← places, List.pairwise_map]
    exact increasing.imp UInt32.le_iff_toNat_le.mp
  have last : (0 :: rest).getLast? =
      some (truth.neighborIds.zip truth.neighborDistances).length := by
    rw [← places, List.getLast?_map, total, size]
  have within : ∀ place ∈ rest,
      place ≤ (truth.neighborIds.zip truth.neighborDistances).length := by
    intro place member
    have listed : place ∈ truth.offsets.map UInt32.toNat :=
      places ▸ List.mem_cons_of_mem 0 member
    rcases List.mem_map.mp listed with ⟨offset, inside, rfl⟩
    rw [size]
    exact le_of_mem_offsets inside
  have same : (0 :: rest).map UInt32.ofNat = truth.offsets := by
    rw [← places, List.map_map]
    exact List.map_id'' (fun offset => UInt32.ofNat_toNat) truth.offsets
  have whole := flatten_cut ascends last
  rw [List.drop_zero] at whole
  have fits : (cut (truth.neighborIds.zip truth.neighborDistances)
      (0 :: rest)).flatten.length < fieldLimit := by
    rw [whole, size]
    exact truth.neighborIds_lt
  rw [places, ofRows_eq fits, rowEnds_cut ascends within, same, whole, List.map_fst_zip fewer,
    List.map_snd_zip (Nat.le_of_eq truth.length_distances), ofParts_self]
  rfl

/-- The two builders take exactly what ground truths consist of, and whichever way a ground truth
was obtained, its offsets cut the neighbors into the rows of the queries, out of which it can be
built again. -/
theorem compressed_rows_represent_lists :
    (∀ threshold offsets neighborIds neighborDistances,
      (∃ truth, ofParts threshold offsets neighborIds neighborDistances = .ok truth ∧
        truth.threshold = threshold ∧ truth.offsets = offsets ∧
        truth.neighborIds = neighborIds ∧ truth.neighborDistances = neighborDistances) ↔
      RowOffsets offsets neighborIds.length ∧
        neighborDistances.length = neighborIds.length) ∧
    (∀ truth : GroundTruth,
      truth.offsets.length = truth.queryCount + 1 ∧
      RowOffsets truth.offsets truth.neighborIds.length ∧
      truth.neighborDistances.length = truth.neighborIds.length ∧
      ∃ rows, truth.rows = .ok rows ∧ truth.Compresses rows ∧
        ofRows truth.threshold rows = .ok truth) ∧
    ∀ threshold lists,
      (ofRows threshold lists = .error (.invalidParameter .tooManyNeighbors) ↔
        fieldLimit ≤ lists.flatten.length) ∧
      ((∃ truth, ofRows threshold lists = .ok truth ∧ truth.threshold = threshold ∧
          truth.rows = .ok lists ∧ truth.Compresses lists) ↔
        lists.flatten.length < fieldLimit) := by
  refine ⟨?parts, ?rows, ?lists⟩
  case parts =>
    intro threshold offsets neighborIds neighborDistances
    constructor
    · rintro ⟨truth, _, -, rfl, rfl, rfl⟩
      exact ⟨truth.rowOffsets, truth.length_distances⟩
    · rintro ⟨shape, lengths⟩
      rcases exists_ofParts shape lengths threshold with ⟨truth, built⟩
      exact ⟨truth, built, ofParts_eq_ok built⟩
  case rows =>
    intro truth
    have compresses := compresses_of_ofRows (ofRows_cut truth)
    exact ⟨truth.length_offsets, truth.rowOffsets, truth.length_distances, _,
      compresses.rows_eq, compresses, ofRows_cut truth⟩
  case lists =>
    intro threshold lists
    by_cases fits : lists.flatten.length < fieldLimit
    · rcases exists_ofRows threshold fits with ⟨truth, built⟩
      have compresses := compresses_of_ofRows built
      refine ⟨⟨fun refused => ?_, fun tooMany => absurd fits (Nat.not_lt.mpr tooMany)⟩,
        fun _ => fits, fun _ => ?_⟩
      · rw [built] at refused
        cases refused
      · exact ⟨truth, built, (ofRows_eq_ok built).2.1, compresses.rows_eq, compresses⟩
    · have tooMany := @ofRows_of_tooMany threshold lists (Nat.le_of_not_lt fits)
      refine ⟨⟨fun _ => Nat.le_of_not_lt fits, fun _ => tooMany⟩, ?_, fun less => absurd less fits⟩
      rintro ⟨truth, built, -⟩
      rw [tooMany] at built
      cases built

example : ∃ truth, ofRows { bits := 0 } [[], [(3, { bits := 1 }), (5, { bits := 2 })], []] =
    .ok truth ∧ truth.offsets = [0, 0, 2, 2] ∧ truth.neighbors 1 = .ok [3, 5] ∧
      truth.neighbors 2 = .ok [] :=
  ⟨_, rfl, rfl, rfl, rfl⟩

end GroundTruth

end RangeRecall
