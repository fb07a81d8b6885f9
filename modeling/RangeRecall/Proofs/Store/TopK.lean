import RangeRecall.Proofs.GroundTruth.Scan
import RangeRecall.Proofs.Numeric.Comparison
import RangeRecall.Proofs.Store.WorstFirst

/-! The nearest rows of a store. A top-k search returns as many rows as it may, each once and
only admitted ones, and if every admitted row is at some distance, no row that it leaves out is
nearer than one that it returns. -/

namespace RangeRecall

namespace MemoryStore

def rowId (store : MemoryStore) (row : Nat) : UInt64 :=
  UInt64.ofNat (row + store.idBase.toNat)

def rowDistance (store : MemoryStore) (query : List Binary32) (row : Nat) : Binary32 :=
  store.metric.measure query (store.base.row row)

def admittedRows (store : MemoryStore) (admits : UInt64 → Bool) : List Nat :=
  (List.range store.base.count).filter fun row => admits (store.rowId row)

def candidate (store : MemoryStore) (query : List Binary32) (row : Nat) : Candidate where
  id := store.rowId row
  distance := store.rowDistance query row

variable {store : MemoryStore} {query : List Binary32} {admits : UInt64 → Bool}

theorem candidates_eq {vectors : List (List Binary32)} {start : Nat}
    (comparable : ∀ vector ∈ vectors, query.length = vector.length)
    (fits : start + vectors.length + store.idBase.toNat ≤ wordLimit) :
    store.candidates query admits start vectors =
      .ok (((vectors.zipIdx start).filter fun numbered => admits (store.rowId numbered.2)).map
        fun numbered =>
          { id := store.rowId numbered.2, distance := store.metric.measure query numbered.1 }) := by
  induction vectors generalizing start with
  | nil => rfl
  | cons vector rest induction =>
      rw [List.length_cons] at fits
      have tailFits : start + 1 + rest.length + store.idBase.toNat ≤ wordLimit := by omega
      have later := induction
        (fun other member => comparable other (List.mem_cons_of_mem _ member)) tailFits
      have measured := store.metric.distance_eq_ok (comparable vector List.mem_cons_self)
      have identified : store.idOf start = .ok (store.rowId start) := idOf_eq (by omega)
      rw [candidates, identified, measured, later, List.zipIdx_cons, List.filter_cons]
      change (if admits (store.rowId start) = true then Except.ok _ else Except.ok _) = _
      split <;> rfl

theorem comparable_of_fits (fits : store.base.count = 0 ∨ query.length = store.base.dimension) :
    ∀ vector ∈ store.base.rows, query.length = vector.length := by
  intro vector member
  rcases fits with empty | same
  · simp [VectorBatch.rows_eq_map, empty] at member
  · rw [same, VectorBatch.length_of_mem_rows member]

theorem candidates_rows (fits : store.base.count = 0 ∨ query.length = store.base.dimension)
    (numbered : store.base.count + store.idBase.toNat ≤ wordLimit) :
    store.candidates query admits 0 store.base.rows =
      .ok ((store.admittedRows admits).map (store.candidate query)) := by
  rw [candidates_eq (comparable_of_fits fits) (by rw [VectorBatch.length_rows]; omega),
    VectorBatch.zipIdx_rows, List.filter_map, List.map_map]
  rfl

def rowOf (store : MemoryStore) (id : UInt64) : Nat :=
  id.toNat - store.idBase.toNat

theorem rowOf_rowId (numbered : store.base.count + store.idBase.toNat ≤ wordLimit) {row : Nat}
    (inside : row < store.base.count) : store.rowOf (store.rowId row) = row := by
  have value : (store.rowId row).toNat = row + store.idBase.toNat := by
    apply UInt64.toNat_ofNat_of_lt'
    simp only [wordLimit, UInt64.size] at *
    omega
  rw [rowOf, value, Nat.add_sub_cancel]

theorem lt_count_of_mem_admittedRows {row : Nat} (member : row ∈ store.admittedRows admits) :
    row < store.base.count :=
  List.mem_range.mp (List.mem_of_mem_filter member)

theorem nodup_admittedRows (store : MemoryStore) (admits : UInt64 → Bool) :
    (store.admittedRows admits).Nodup :=
  List.nodup_range.filter _

theorem compares_candidates {rows : List Nat}
    (measured : ∀ row ∈ rows, (store.rowDistance query row).isNaN = false) :
    WorstFirst.Compares Candidate.isNearer (fun candidate => candidate.distance.rank)
      (rows.map (store.candidate query)) := by
  intro left leftMember right rightMember
  rcases List.mem_map.mp leftMember with ⟨row, member, rfl⟩
  rcases List.mem_map.mp rightMember with ⟨other, otherMember, rfl⟩
  have compared :=
    @Binary32.isLess_iff (store.rowDistance query row) (store.rowDistance query other)
  exact compared.trans ⟨fun parts => parts.2.2,
    fun less => ⟨measured row member, measured other otherMember, less⟩⟩

section

variable {rows : List Nat}

theorem map_candidate_rowOf (numbered : store.base.count + store.idBase.toNat ≤ wordLimit)
    (inside : ∀ row ∈ rows, row < store.base.count) {candidates : List Candidate}
    (subset : candidates ⊆ rows.map (store.candidate query)) :
    (candidates.map fun candidate => store.rowOf candidate.id).map (store.candidate query) =
      candidates := by
  rw [List.map_map]
  refine (List.map_congr_left fun candidate member => ?_).trans (List.map_id candidates)
  rcases List.mem_map.mp (subset member) with ⟨row, rowMember, rfl⟩
  exact congrArg (store.candidate query) (rowOf_rowId numbered (inside row rowMember))

theorem map_rowOf_candidate (numbered : store.base.count + store.idBase.toNat ≤ wordLimit)
    (inside : ∀ row ∈ rows, row < store.base.count) :
    ((rows.map (store.candidate query)).map fun candidate => store.rowOf candidate.id) = rows := by
  rw [List.map_map]
  refine (List.map_congr_left fun row member => ?_).trans (List.map_id rows)
  exact rowOf_rowId numbered (inside row member)

theorem nodup_map_rowId (numbered : store.base.count + store.idBase.toNat ≤ wordLimit)
    (inside : ∀ row ∈ rows, row < store.base.count) (distinct : rows.Nodup) :
    (rows.map store.rowId).Nodup := by
  apply List.Nodup.of_map store.rowOf
  rw [List.map_map]
  have back : rows.map (store.rowOf ∘ store.rowId) = rows.map id :=
    List.map_congr_left fun row member => rowOf_rowId numbered (inside row member)
  rwa [back, List.map_id]

theorem exists_nearest (numbered : store.base.count + store.idBase.toNat ≤ wordLimit)
    (inside : ∀ row ∈ rows, row < store.base.count) {k : Nat} (positive : 0 < k)
    (query : List Binary32) :
    ∃ found leftOut : List Nat,
      nearest k (rows.map (store.candidate query)) = found.map (store.candidate query) ∧
        (found ++ leftOut).Perm rows ∧
        found.length = min k rows.length ∧
        ((∀ row ∈ rows, (store.rowDistance query row).isNaN = false) →
          found.Pairwise (fun nearer farther =>
              (store.rowDistance query nearer).rank ≤ (store.rowDistance query farther).rank) ∧
            ∀ row ∈ found, ∀ other ∈ leftOut,
              (store.rowDistance query row).rank ≤ (store.rowDistance query other).rank) := by
  obtain ⟨dropped, parted, length, ordered⟩ :=
    @WorstFirst.sorted_foldl_offer _ Candidate.isNearer k positive
      (rows.map (store.candidate query))
  change (nearest k (rows.map (store.candidate query)) ++ dropped).Perm _ at parted
  change (nearest k (rows.map (store.candidate query))).length = _ at length
  have kept := map_candidate_rowOf numbered inside
    (List.Subset.trans (List.subset_append_left _ _) parted.subset)
  have lost := map_candidate_rowOf numbered inside
    (List.Subset.trans (List.subset_append_right _ _) parted.subset)
  refine ⟨_, dropped.map fun candidate => store.rowOf candidate.id, kept.symm, ?_, ?_, ?_⟩
  · have rearranged := parted.map fun candidate => store.rowOf candidate.id
    rw [List.map_append, map_rowOf_candidate numbered inside] at rearranged
    exact rearranged
  · rw [List.length_map, length, List.length_map]
  · intro measured
    have ranked := ordered _ (compares_candidates measured)
    constructor
    · have ascending := ranked.1
      change (nearest k (rows.map (store.candidate query))).Pairwise _ at ascending
      rw [← kept, List.pairwise_map] at ascending
      exact ascending
    · intro row member other otherMember
      have found := List.mem_map_of_mem (f := store.candidate query) member
      have leftOut := List.mem_map_of_mem (f := store.candidate query) otherMember
      rw [kept] at found
      rw [lost] at leftOut
      exact ranked.2 _ found _ leftOut

end

theorem count_add_idBase_le
    (numbered : ∀ row < store.base.count, row + store.idBase.toNat < wordLimit) :
    store.base.count + store.idBase.toNat ≤ wordLimit := by
  have first := store.idBase.toNat_lt
  have last := numbered (store.base.count - 1)
  simp only [wordLimit] at *
  omega

theorem topKSearch_eq (fits : store.base.count = 0 ∨ query.length = store.base.dimension)
    (numbered : store.base.count + store.idBase.toNat ≤ wordLimit) {k : Nat} (positive : 0 < k)
    (reservable : k * candidateSize ≤ allocationLimit) :
    store.topKSearch query k admits =
      .ok ((nearest k ((store.admittedRows admits).map (store.candidate query))).map
        Candidate.id) := by
  rw [topKSearch, if_neg (Nat.ne_of_gt positive), reserve, if_pos reservable,
    candidates_rows fits numbered]
  rfl

/-- A top-k search finds as many admitted rows as it may, each with one identifier of its own. If
every admitted row is at some distance, the found rows come nearest first, and no row that is
left out is nearer than a found one. -/
theorem topKSearch_exact (store : MemoryStore) (query : List Binary32) (k : Nat)
    (admits : UInt64 → Bool)
    (fits : store.base.count = 0 ∨ query.length = store.base.dimension)
    (reservable : k * candidateSize ≤ allocationLimit)
    (numbered : ∀ row < store.base.count, row + store.idBase.toNat < wordLimit) :
    ∃ found : List Nat,
      store.topKSearch query k admits = .ok (found.map store.rowId) ∧
        (found.map store.rowId).Nodup ∧
        found ⊆ store.admittedRows admits ∧
        found.length = min k (store.admittedRows admits).length ∧
        ((∀ row ∈ store.admittedRows admits, (store.rowDistance query row).isNaN = false) →
          found.Pairwise (fun nearer farther =>
              ¬(store.rowDistance query farther).isLess (store.rowDistance query nearer)) ∧
            ∀ row ∈ store.admittedRows admits, row ∉ found → ∀ other ∈ found,
              ¬(store.rowDistance query row).isLess (store.rowDistance query other)) := by
  have room : store.base.count + store.idBase.toNat ≤ wordLimit := by
    have first := store.idBase.toNat_lt
    have last := numbered (store.base.count - 1)
    simp only [wordLimit] at *
    omega
  rcases Nat.eq_zero_or_pos k with rfl | positive
  · exact ⟨[], rfl, by simp, by simp, by simp, by simp⟩
  · have inside : ∀ row ∈ store.admittedRows admits, row < store.base.count :=
      fun _ member => List.mem_range.mp (List.mem_of_mem_filter member)
    rcases exists_nearest room inside positive query with
      ⟨found, leftOut, kept, parted, length, ordered⟩
    have searched : store.topKSearch query k admits = .ok (found.map store.rowId) := by
      rw [topKSearch_eq fits room positive reservable, kept, List.map_map]
      rfl
    have subset : found ⊆ store.admittedRows admits :=
      List.Subset.trans (List.subset_append_left _ _) parted.subset
    have distinct : found.Nodup :=
      (List.nodup_append.mp (parted.nodup_iff.mpr (nodup_admittedRows store admits))).1
    have idsDistinct := nodup_map_rowId room (fun row member => inside row (subset member)) distinct
    refine ⟨found, searched, idsDistinct, subset, length, fun measured => ?_⟩
    have ranked := ordered measured
    constructor
    · exact ranked.1.imp fun notFarther less =>
        absurd (Binary32.isLess_iff.mp less).2.2 (Int.not_lt.mpr notFarther)
    · intro row admitted absent other member less
      have out : row ∈ leftOut :=
        (List.mem_append.mp (parted.mem_iff.mpr admitted)).resolve_left absent
      exact absurd (Binary32.isLess_iff.mp less).2.2
        (Int.not_lt.mpr (ranked.2 other member row out))

def fourOnLine : MemoryStore where
  base := {
    count := 4
    dimension := 1
    components := [⟨0x40400000⟩, ⟨0⟩, ⟨0x3f800000⟩, ⟨0x40000000⟩]
    length_components := rfl
    count_eq_zero := fun zero => absurd zero (by decide) }

theorem fourOnLine_nearest_two :
    ∃ found : List Nat,
      fourOnLine.topKSearch [⟨0⟩] 2 (fun id => id != 2) = .ok (found.map fourOnLine.rowId) ∧
        (found.map fourOnLine.rowId).Nodup ∧ found ⊆ [0, 2, 3] ∧ found.length = 2 ∧
        found.Pairwise (fun nearer farther =>
          ¬(fourOnLine.rowDistance [⟨0⟩] farther).isLess
            (fourOnLine.rowDistance [⟨0⟩] nearer)) ∧
        ∀ row ∈ [0, 2, 3], row ∉ found → ∀ other ∈ found,
          ¬(fourOnLine.rowDistance [⟨0⟩] row).isLess (fourOnLine.rowDistance [⟨0⟩] other) := by
  have admitted : fourOnLine.admittedRows (fun id => id != 2) = [0, 2, 3] := by decide
  have measured : ∀ row ∈ fourOnLine.admittedRows (fun id => id != 2),
      (fourOnLine.rowDistance [⟨0⟩] row).isNaN = false := by decide +kernel
  rcases topKSearch_exact fourOnLine [⟨0⟩] 2 (fun id => id != 2) (.inr rfl) (by decide)
    (by decide) with ⟨found, searched, distinct, subset, length, ordered⟩
  have nearest := ordered measured
  rw [admitted] at subset length nearest
  exact ⟨found, searched, distinct, subset, length, nearest⟩

end MemoryStore

end RangeRecall
