import RangeRecall.Proofs.Store.Faults

/-! Rows at no distance. Such a row compares with no other, so a full heap never lets it in, and at
the root of a heap it is never let out. A top-k search passes over it if the heap fills up before
the row is seen, and if the row is the first one, the search returns whatever comes first. -/

namespace RangeRecall

namespace WorstFirst

variable {α : Type} {isLess : α → α → Bool} {k : Nat} {items : Array α}

/-- An item that is neither less nor greater than anything. -/
def Apart (isLess : α → α → Bool) (item : α) : Prop :=
  ∀ other, isLess item other = false ∧ isLess other item = false

/-! ## Items that a full heap does not let in -/

theorem offer_of_apart {item : α} (full : k ≤ items.size) (apart : Apart isLess item) :
    offer isLess k items item = items := by
  unfold offer
  rw [if_neg (Nat.not_lt.mpr full)]
  split
  · rename_i root _
    rw [(apart root).1]
    rfl
  · rfl

theorem size_offer_of_full (full : k ≤ items.size) (item : α) :
    (offer isLess k items item).size = items.size := by
  unfold offer
  rw [if_neg (Nat.not_lt.mpr full)]
  split
  · rename_i root found
    split
    · have removed := (removeRoot_perm isLess found).length_eq
      have inserted := (insert_perm isLess (removeRoot isLess items) item).length_eq
      simp only [Array.length_toList, List.length_cons] at removed inserted
      omega
    · rfl
  · rfl

/-- A full heap changes as if the items that compare with nothing were not offered. -/
theorem foldl_offer_filter {compares : α → Bool} {offered : List α} (full : k ≤ items.size)
    (apart : ∀ item ∈ offered, compares item = false → Apart isLess item) :
    offered.foldl (offer isLess k) items =
      (offered.filter compares).foldl (offer isLess k) items := by
  induction offered generalizing items with
  | nil => rfl
  | cons item rest induction =>
      have later := fun other member => apart other (List.mem_cons_of_mem _ member)
      rw [List.foldl_cons, List.filter_cons]
      cases compared : compares item with
      | false =>
          rw [offer_of_apart full (apart item List.mem_cons_self compared)]
          exact induction full later
      | true => exact induction ((size_offer_of_full full item).symm ▸ full) later

theorem size_foldl_offer (positive : 0 < k) (offered : List α) :
    (offered.foldl (offer isLess k) #[]).size = min k offered.length := by
  rcases (Keeps.none isLess k).foldl positive offered with ⟨_, keeps⟩
  rw [List.append_nil] at keeps
  rw [keeps.size, List.length_reverse]

theorem foldl_offer_of_take {compares : α → Bool} {offered : List α} (positive : 0 < k)
    (first : ∀ item ∈ offered.take k, compares item = true)
    (apart : ∀ item ∈ offered, compares item = false → Apart isLess item) :
    offered.foldl (offer isLess k) #[] =
      (offered.filter compares).foldl (offer isLess k) #[] := by
  by_cases many : k ≤ offered.length
  · have full : k ≤ ((offered.take k).foldl (offer isLess k) #[]).size := by
      rw [size_foldl_offer positive, List.length_take]
      omega
    have early : (offered.take k).filter compares = offered.take k :=
      List.filter_eq_self.mpr first
    have late : ∀ item ∈ offered.drop k, compares item = false → Apart isLess item :=
      fun item member => apart item (List.mem_of_mem_drop member)
    rw [← List.take_append_drop k offered, List.filter_append, early, List.foldl_append,
      List.foldl_append, foldl_offer_filter full late]
  · rw [List.take_of_length_le (by omega)] at first
    rw [List.filter_eq_self.mpr first]

/-! ## Items that are never let out -/

theorem siftUp_root {position : Nat} {inside : position < items.size} {root : α}
    (found : items[0]? = some root) (greatest : ∀ other, isLess root other = false) :
    (siftUp isLess items position inside)[0]? = some root := by
  fun_induction siftUp isLess items position inside with
  | case1 => exact found
  | case2 items position inside notTop parent less induction =>
      have parentNotTop : parent ≠ 0 := by
        intro top
        have isRoot : items[parent] = root := by
          obtain ⟨_, same⟩ := Array.getElem?_eq_some_iff.mp found
          simpa only [top] using same
        rw [isRoot, greatest] at less
        cases less
      apply induction
      rw [Array.getElem?_swap, if_neg notTop, if_neg parentNotTop]
      exact found
  | case3 => exact found

theorem insert_root {root : α} (found : items[0]? = some root)
    (greatest : ∀ other, isLess root other = false) (item : α) :
    (insert isLess items item)[0]? = some root := by
  apply siftUp_root _ greatest
  obtain ⟨inside, _⟩ := Array.getElem?_eq_some_iff.mp found
  rw [Array.getElem?_push_lt inside, ← Array.getElem?_eq_getElem inside, found]

theorem foldl_offer_of_root {root : α} (found : items[0]? = some root)
    (apart : Apart isLess root) (room : items.size ≤ k) (offered : List α) :
    (offered.foldl (offer isLess k) items).toList.Perm
      (items.toList ++ offered.take (k - items.size)) := by
  induction offered generalizing items with
  | nil => simp
  | cons item rest induction =>
      rw [List.foldl_cons]
      by_cases notFull : items.size < k
      · have inserted := insert_perm isLess items item
        have size : (insert isLess items item).size = items.size + 1 := by
          simpa using inserted.length_eq
        have rootStays := insert_root found (fun other => (apart other).1) item
        have later := induction rootStays (by omega)
        have taken : (item :: rest).take (k - items.size) =
            item :: rest.take (k - (items.size + 1)) := by
          rw [← Nat.sub_sub, ← List.take_succ_cons, Nat.sub_add_cancel (by omega)]
        rw [offer, if_pos notFull, taken]
        rw [size] at later
        exact later.trans ((inserted.append_right _).trans List.perm_middle.symm)
      · have nothing : k - items.size = 0 := by omega
        have unchanged : offer isLess k items item = items := by
          rw [offer, if_neg notFull, found]
          simp only [(apart item).2, Bool.false_eq_true, if_false]
        have later := induction found room
        rw [nothing, List.take_zero] at later ⊢
        rw [unchanged]
        exact later

end WorstFirst

theorem Candidate.apart_of_isNaN {candidate : Candidate} (unmeasured : candidate.distance.isNaN) :
    WorstFirst.Apart Candidate.isNearer candidate := by
  intro other
  constructor
  · refine Bool.eq_false_iff.mpr fun less => ?_
    cases unmeasured.symm.trans (Binary32.isLess_iff.mp less).1
  · refine Bool.eq_false_iff.mpr fun less => ?_
    cases unmeasured.symm.trans (Binary32.isLess_iff.mp less).2.1

namespace MemoryStore

variable {store : MemoryStore} {query : List Binary32} {admits : UInt64 → Bool} {k : Nat}

theorem nearest_of_measured (positive : 0 < k) {candidates : List Candidate}
    (first : ∀ candidate ∈ candidates.take k, candidate.distance.isNaN = false) :
    nearest k candidates =
      nearest k (candidates.filter fun candidate => !candidate.distance.isNaN) := by
  have early : ∀ candidate ∈ candidates.take k, (!candidate.distance.isNaN) = true :=
    fun candidate member => by simp only [first candidate member, Bool.not_false]
  have apart : ∀ candidate ∈ candidates, (!candidate.distance.isNaN) = false →
      WorstFirst.Apart Candidate.isNearer candidate :=
    fun candidate _ unmeasured => Candidate.apart_of_isNaN (by simpa using unmeasured)
  rw [nearest, nearest, WorstFirst.foldl_offer_of_take positive early apart]

theorem nearest_of_unmeasured (positive : 0 < k) {first : Candidate} (rest : List Candidate)
    (unmeasured : first.distance.isNaN = true) :
    (nearest k (first :: rest)).Perm ((first :: rest).take k) := by
  have apart := Candidate.apart_of_isNaN unmeasured
  have root : WorstFirst.offer Candidate.isNearer k #[] first = #[first] := by
    rw [WorstFirst.offer, if_pos (by simpa using positive), WorstFirst.insert,
      WorstFirst.siftUp, dif_pos (by simp)]
    rfl
  have found : (#[first] : Array Candidate)[0]? = some first := rfl
  have kept := WorstFirst.foldl_offer_of_root found apart positive rest
  have taken : (first :: rest).take k = first :: rest.take (k - 1) := by
    rw [← List.take_succ_cons, Nat.sub_add_cancel positive]
  rw [nearest, List.foldl_cons, root, taken]
  exact (WorstFirst.sorted_perm _ _).toList.trans kept

/-! ## Searches that return -/

theorem of_distance_eq_ok {metric : DistanceMetric} {left right : List Binary32}
    {distance : Binary32} (measured : metric.distance left right = .ok distance) :
    distance = metric.measure left right := by
  rw [DistanceMetric.distance] at measured
  split at measured
  · exact (Except.ok.inj measured).symm
  · cases measured

theorem of_candidates_cons_eq_ok {vector : List Binary32} {rest : List (List Binary32)}
    {start : Nat} {found : List Candidate} (word : start < wordLimit)
    (searched : store.candidates query admits start (vector :: rest) = .ok found) :
    start + store.idBase.toNat < wordLimit ∧
      ∃ others, store.candidates query admits (start + 1) rest = .ok others ∧
        found = if admits (store.rowId start) then
          { id := store.rowId start, distance := store.metric.measure query vector } :: others
        else others := by
  rw [candidates, idOf_of_word word] at searched
  by_cases fits : start + store.idBase.toNat < wordLimit
  · refine ⟨fits, ?_⟩
    rw [if_pos fits] at searched
    change (if admits (store.rowId start) = true then _ else _) = _ at searched
    split at searched
    · rename_i admitted
      obtain ⟨distance, measured, last⟩ := Failure.bind_eq_ok_iff.mp searched
      obtain ⟨others, later, same⟩ := Failure.bind_eq_ok_iff.mp last
      cases same
      refine ⟨others, later, ?_⟩
      rw [if_pos admitted, of_distance_eq_ok measured]
    · rename_i notAdmitted
      refine ⟨found, searched, ?_⟩
      rw [if_neg notAdmitted]
  · rw [if_neg fits] at searched
    cases searched

theorem of_candidates_eq_ok {vectors : List (List Binary32)} {start : Nat}
    {found : List Candidate} (words : start + vectors.length ≤ wordLimit)
    (searched : store.candidates query admits start vectors = .ok found) :
    found = ((vectors.zipIdx start).filter fun numbered => admits (store.rowId numbered.2)).map
        (fun numbered =>
          { id := store.rowId numbered.2, distance := store.metric.measure query numbered.1 }) ∧
      ∀ row, start ≤ row → row < start + vectors.length →
        row + store.idBase.toNat < wordLimit := by
  induction vectors generalizing start found with
  | nil =>
      cases searched
      exact ⟨rfl, fun row after before => absurd before (Nat.not_lt.mpr after)⟩
  | cons vector rest induction =>
      rw [List.length_cons] at words ⊢
      obtain ⟨fits, others, later, same⟩ := of_candidates_cons_eq_ok (by omega) searched
      obtain ⟨rfl, fit⟩ := induction (by omega) later
      constructor
      · rw [same, List.zipIdx_cons, List.filter_cons]
        split <;> rfl
      · intro row after before
        rcases Nat.eq_or_lt_of_le after with rfl | strictly
        · exact fits
        · exact fit row strictly (by omega)

theorem of_topKSearch_eq_ok {ids : List UInt64} (positive : 0 < k)
    (counted : store.base.count < wordLimit)
    (searched : store.topKSearch query k admits = .ok ids) :
    store.base.count + store.idBase.toNat ≤ wordLimit ∧
      ids = (nearest k ((store.admittedRows admits).map (store.candidate query))).map
        Candidate.id := by
  rw [topKSearch, if_neg (Nat.ne_of_gt positive)] at searched
  obtain ⟨-, -, searched⟩ := Failure.bind_eq_ok_iff.mp searched
  obtain ⟨found, measured, same⟩ := Failure.bind_eq_ok_iff.mp searched
  cases same
  obtain ⟨rfl, fit⟩ := of_candidates_eq_ok (by rw [VectorBatch.length_rows]; omega) measured
  rw [VectorBatch.length_rows] at fit
  refine ⟨count_add_idBase_le fun row inside => fit row (Nat.zero_le _) (by omega), ?_⟩
  rw [VectorBatch.zipIdx_rows, List.filter_map, List.map_map]
  rfl

section

variable {rows found : List Nat}

theorem map_candidate_injective (numbered : store.base.count + store.idBase.toNat ≤ wordLimit)
    {others : List Nat} (inside : ∀ row ∈ rows, row < store.base.count)
    (othersInside : ∀ row ∈ others, row < store.base.count)
    (same : (rows.map (store.candidate query)).Perm (others.map (store.candidate query))) :
    rows.Perm others := by
  have back := same.map fun candidate => store.rowOf candidate.id
  rwa [map_rowOf_candidate numbered inside, map_rowOf_candidate numbered othersInside] at back

theorem not_nearer_of_measured (numbered : store.base.count + store.idBase.toNat ≤ wordLimit)
    (inside : ∀ row ∈ rows, row < store.base.count) (positive : 0 < k)
    (foundInside : ∀ row ∈ found, row < store.base.count)
    (kept : nearest k (rows.map (store.candidate query)) = found.map (store.candidate query))
    (first : ∀ row ∈ rows.take k, (store.rowDistance query row).isNaN = false) :
    ∀ row ∈ rows, row ∉ found → ∀ other ∈ found,
      ¬(store.rowDistance query row).isLess (store.rowDistance query other) := by
  have measured : ∀ row ∈ rows.filter fun row => !(store.rowDistance query row).isNaN,
      (store.rowDistance query row).isNaN = false := by
    intro row member
    simpa using (List.mem_filter.mp member).2
  have filteredInside : ∀ row ∈ rows.filter fun row => !(store.rowDistance query row).isNaN,
      row < store.base.count :=
    fun row member => inside row (List.mem_of_mem_filter member)
  have firstCandidates : ∀ candidate ∈ (rows.map (store.candidate query)).take k,
      candidate.distance.isNaN = false := by
    intro candidate member
    rw [← List.map_take] at member
    obtain ⟨row, rowMember, rfl⟩ := List.mem_map.mp member
    exact first row rowMember
  obtain ⟨nearestRows, leftOut, keptRows, parted, -, ordered⟩ :=
    exists_nearest numbered filteredInside positive query
  have sameRows : found.Perm nearestRows := by
    have nearestInside : ∀ row ∈ nearestRows, row < store.base.count := fun row member =>
      filteredInside row (parted.subset (List.mem_append_left _ member))
    apply map_candidate_injective numbered foundInside nearestInside
    rw [← kept, ← keptRows, nearest_of_measured positive firstCandidates, List.filter_map]
    rfl
  intro row member absent other otherMember less
  have numbers := Binary32.isLess_iff.mp less
  have filtered : row ∈ rows.filter fun row => !(store.rowDistance query row).isNaN :=
    List.mem_filter.mpr ⟨member, by simp [numbers.1]⟩
  have out : row ∈ leftOut := (List.mem_append.mp (parted.mem_iff.mpr filtered)).resolve_left
    fun isFound => absent (sameRows.mem_iff.mpr isFound)
  have ranked := (ordered measured).2 other (sameRows.subset otherMember) row out
  exact absurd numbers.2.2 (Int.not_lt.mpr ranked)

theorem perm_take_of_unmeasured (numbered : store.base.count + store.idBase.toNat ≤ wordLimit)
    (inside : ∀ row ∈ rows, row < store.base.count) (positive : 0 < k)
    (foundInside : ∀ row ∈ found, row < store.base.count)
    (kept : nearest k (rows.map (store.candidate query)) = found.map (store.candidate query))
    {first : Nat} (isFirst : rows.head? = some first)
    (unmeasured : (store.rowDistance query first).isNaN = true) :
    found.Perm (rows.take k) := by
  obtain ⟨rest, rfl⟩ := List.head?_eq_some_iff.mp isFirst
  apply map_candidate_injective numbered foundInside
    fun row member => inside row (List.mem_of_mem_take member)
  rw [← kept, List.map_take]
  exact nearest_of_unmeasured positive _ unmeasured

theorem not_nearer_of_single (numbered : store.base.count + store.idBase.toNat ≤ wordLimit)
    (inside : ∀ row ∈ rows, row < store.base.count)
    (foundInside : ∀ row ∈ found, row < store.base.count)
    (kept : nearest 1 (rows.map (store.candidate query)) = found.map (store.candidate query)) :
    ∀ row ∈ rows, row ∉ found → ∀ other ∈ found,
      ¬(store.rowDistance query row).isLess (store.rowDistance query other) := by
  intro row member absent other otherMember less
  obtain ⟨first, rest, isFirst⟩ := List.exists_cons_of_ne_nil (List.ne_nil_of_mem member)
  have head : rows.head? = some first := by rw [isFirst, List.head?_cons]
  have only : rows.take 1 = [first] := by rw [isFirst, List.take_succ_cons, List.take_zero]
  cases measured : (store.rowDistance query first).isNaN with
  | true =>
      have same :=
        perm_take_of_unmeasured numbered inside Nat.one_pos foundInside kept head measured
      rw [only] at same
      cases List.mem_singleton.mp (same.subset otherMember)
      cases measured.symm.trans (Binary32.isLess_iff.mp less).2.1
  | false =>
      have early : ∀ row ∈ rows.take 1, (store.rowDistance query row).isNaN = false := by
        rw [only]
        exact List.forall_mem_singleton.mpr measured
      exact not_nearer_of_measured numbered inside Nat.one_pos foundInside kept early row member
        absent other otherMember less

end

/-- A search leaves out no admitted row that is nearer than one it returns if the first admitted
rows, as many as are wanted, are all at some distance. The same holds if at most one row is wanted,
or as many as are admitted. If the first admitted row of all is at no distance, the search returns
the rows that come first, however near the others are. -/
theorem nearer_row_kept (store : MemoryStore) (query : List Binary32) (k : Nat)
    (admits : UInt64 → Bool) (ids : List UInt64) (counted : store.base.count < wordLimit)
    (searched : store.topKSearch query k admits = .ok ids) :
    let rows := store.admittedRows admits
    ∃ found : List Nat, ids = found.map store.rowId ∧ ids.Nodup ∧ found ⊆ rows ∧
      ((k ≤ 1 ∨ rows.length ≤ k ∨
          ∀ row ∈ rows.take k, (store.rowDistance query row).isNaN = false) →
        ∀ row ∈ rows, row ∉ found → ∀ other ∈ found,
          ¬(store.rowDistance query row).isLess (store.rowDistance query other)) ∧
      ∀ first, rows.head? = some first → (store.rowDistance query first).isNaN = true →
        found.Perm (rows.take k) := by
  intro rows
  rcases Nat.eq_zero_or_pos k with rfl | positive
  · cases searched
    exact ⟨[], rfl, .nil, List.nil_subset _, by simp, by simp⟩
  · obtain ⟨numbered, rfl⟩ := of_topKSearch_eq_ok positive counted searched
    have inside : ∀ row ∈ rows, row < store.base.count :=
      fun _ => lt_count_of_mem_admittedRows
    obtain ⟨found, leftOut, kept, parted, length, -⟩ :=
      exists_nearest numbered inside positive query
    have subset : found ⊆ rows :=
      List.Subset.trans (List.subset_append_left _ _) parted.subset
    have foundInside : ∀ row ∈ found, row < store.base.count :=
      fun row member => inside row (subset member)
    have distinct : found.Nodup :=
      (List.nodup_append.mp (parted.nodup_iff.mpr (nodup_admittedRows store admits))).1
    have ids : (nearest k (rows.map (store.candidate query))).map Candidate.id =
        found.map store.rowId := by
      rw [kept, List.map_map]
      rfl
    refine ⟨found, ids, ?_, subset, ?_, fun first =>
      perm_take_of_unmeasured numbered inside positive foundInside kept⟩
    · rw [ids]
      exact nodup_map_rowId numbered foundInside distinct
    · rintro (few | all | measured)
      · obtain rfl : k = 1 := Nat.le_antisymm few positive
        exact not_nearer_of_single numbered inside foundInside kept
      · -- Nothing is left out.
        intro row member absent
        have kept : found.Perm rows :=
          ((List.sublist_append_left _ _).subperm.trans parted.subperm).perm_of_length_le (by omega)
        exact absurd (kept.mem_iff.mpr member) absent
      · exact not_nearer_of_measured numbered inside positive foundInside kept measured

theorem unmeasured_row_third_or_first :
    (∃ store : MemoryStore, ∃ found : List Nat,
      store = {
          base := Benchmark.onLine [⟨0x3f800000⟩, ⟨0x3f000000⟩, ⟨0x7fc00000⟩, ⟨0x3e800000⟩] } ∧
        store.topKSearch [⟨0⟩] 2 (fun _ => true) = .ok (found.map store.rowId) ∧
        ∀ row ∈ [0, 1, 2, 3], row ∉ found → ∀ other ∈ found,
          ¬(store.rowDistance [⟨0⟩] row).isLess (store.rowDistance [⟨0⟩] other)) ∧
      ∃ store : MemoryStore, ∃ found : List Nat,
        store = { base := Benchmark.onLine [⟨0x7fc00000⟩, ⟨0x3f800000⟩, ⟨0x3f000000⟩] } ∧
          store.topKSearch [⟨0⟩] 2 (fun _ => true) = .ok (found.map store.rowId) ∧
          found.Perm [0, 1] ∧
          (store.rowDistance [⟨0⟩] 2).isLess (store.rowDistance [⟨0⟩] 1) = true := by
  constructor
  · have searched := @topKSearch_eq
      { base := Benchmark.onLine [⟨0x3f800000⟩, ⟨0x3f000000⟩, ⟨0x7fc00000⟩, ⟨0x3e800000⟩] }
      [⟨0⟩] (fun _ => true) (.inr rfl) (by decide) 2 (by decide) (by decide)
    obtain ⟨found, ids, -, -, kept, -⟩ := nearer_row_kept _ _ _ _ _ (by decide) searched
    refine ⟨_, found, rfl, ids ▸ searched, kept (.inr (.inr ?_))⟩
    decide +kernel
  · have searched := @topKSearch_eq
      { base := Benchmark.onLine [⟨0x7fc00000⟩, ⟨0x3f800000⟩, ⟨0x3f000000⟩] }
      [⟨0⟩] (fun _ => true) (.inr rfl) (by decide) 2 (by decide) (by decide)
    obtain ⟨found, ids, -, -, -, frozen⟩ := nearer_row_kept _ _ _ _ _ (by decide) searched
    refine ⟨_, found, rfl, ids ▸ searched, frozen 0 rfl ?_, ?_⟩
    · decide +kernel
    · decide +kernel

end MemoryStore

end RangeRecall
