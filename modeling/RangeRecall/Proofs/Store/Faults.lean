import RangeRecall.Proofs.Store.History
import RangeRecall.Proofs.Store.TopK

/-! Submits that fault. The vectors that a store takes have the dimension of its rows, so they can
always be measured. What is left are two limits: a heap that no allocation can hold, and rows whose
identifiers are no words. A top-k search numbers every row, a range search only those it returns. -/

namespace RangeRecall

theorem DistanceMetric.mem_within {metric : DistanceMetric} {threshold : Binary32}
    {query : List Binary32} {batch : VectorBatch} {row : Nat} :
    (∃ hit ∈ metric.within threshold query 0 batch.rows, hit.1 = row) ↔
      row < batch.count ∧ (metric.measure query (batch.row row)).isLess threshold = true := by
  simp only [within_rows, List.mem_map, ← mem_nearRows]
  constructor
  · rintro ⟨_, ⟨row, near, rfl⟩, rfl⟩
    exact near
  · exact fun near => ⟨_, ⟨row, near, rfl⟩, rfl⟩

namespace MemoryStore

variable {store : MemoryStore} {query : List Binary32} {admits : UInt64 → Bool}

/-! ## Numbering -/

theorem idOf_of_word {row : Nat} (word : row < wordLimit) :
    store.idOf row =
      if row + store.idBase.toNat < wordLimit then .ok (store.rowId row)
      else .error .arithmeticOverflow := by
  have value : (UInt64.ofNat row).toNat = row := UInt64.toNat_ofNat_of_lt' word
  have sum : UInt64.ofNat row + store.idBase = store.rowId row := by
    rw [rowId, UInt64.ofNat_add, UInt64.ofNat_toNat]
  rw [idOf, addWords, value, sum]

theorem candidates_of_past {vectors : List (List Binary32)} {start : Nat}
    (comparable : ∀ vector ∈ vectors, query.length = vector.length)
    (words : start + vectors.length ≤ wordLimit) (occupied : vectors ≠ [])
    (past : wordLimit < start + vectors.length + store.idBase.toNat) :
    store.candidates query admits start vectors = .error .arithmeticOverflow := by
  induction vectors generalizing start with
  | nil => exact absurd rfl occupied
  | cons vector rest induction =>
      rw [List.length_cons] at words past
      rw [candidates, idOf_of_word (by omega)]
      by_cases fits : start + store.idBase.toNat < wordLimit
      · have more : rest ≠ [] := by
          rintro rfl
          simp only [List.length_nil] at past
          omega
        have later := @induction (start + 1)
          (fun other member => comparable other (List.mem_cons_of_mem _ member)) (by omega) more
          (by omega)
        have measured := store.metric.distance_eq_ok (comparable vector List.mem_cons_self)
        rw [if_pos fits, measured, later]
        change (if _ then _ else _) = _
        split <;> rfl
      · rw [if_neg fits]
        rfl

/-! ## Searches -/

inductive SearchFault (store : MemoryStore) (query : Query) : Fault → Prop
  | heapTooLarge {k : Nat} {filter : Option IdFilter} (kind : query.kind = .topK k filter)
      (large : allocationLimit < k * candidateSize) : SearchFault store query .capacityExceeded
  | rowPastWords {k : Nat} {filter : Option IdFilter} {row : Nat}
      (kind : query.kind = .topK k filter) (positive : 0 < k)
      (reservable : k * candidateSize ≤ allocationLimit) (inside : row < store.base.count)
      (past : wordLimit ≤ row + store.idBase.toNat) : SearchFault store query .arithmeticOverflow
  | nearRowPastWords {threshold : Binary32} {row : Nat} (kind : query.kind = .range threshold)
      (inside : row < store.base.count)
      (near : (store.rowDistance query.vector row).isLess threshold = true)
      (past : wordLimit ≤ row + store.idBase.toNat) : SearchFault store query .arithmeticOverflow

section

variable {query : Query} {fault : Fault}

theorem search_range {threshold : Binary32} (kind : query.kind = .range threshold) :
    store.search query = store.rangeSearch query.vector threshold := by
  rw [search, kind]

theorem search_topK {k : Nat} {filter : Option IdFilter} (kind : query.kind = .topK k filter) :
    store.search query = store.topKSearch query.vector k (admitsAll filter) := by
  rw [search, kind]

theorem idOf_within {threshold : Binary32} (counted : store.base.count < wordLimit) :
    ∀ hit ∈ store.metric.within threshold query.vector 0 store.base.rows,
      store.idOf hit.1 =
        if hit.1 + store.idBase.toNat < wordLimit then .ok (store.rowId hit.1)
        else .error .arithmeticOverflow := by
  intro hit member
  have inside := (DistanceMetric.mem_within.mp ⟨hit, member, rfl⟩).1
  exact idOf_of_word (Nat.lt_trans inside counted)

theorem search_of_fault
    (fits : store.base.count = 0 ∨ query.vector.length = store.base.dimension)
    (counted : store.base.count < wordLimit) (faulty : SearchFault store query fault) :
    store.search query = .error fault := by
  cases faulty with
  | @heapTooLarge k filter kind large =>
      have positive : k ≠ 0 := by
        rintro rfl
        rw [Nat.zero_mul] at large
        exact absurd large (Nat.not_lt_zero _)
      rw [search_topK kind, topKSearch, if_neg positive, reserve, if_neg (Nat.not_le.mpr large)]
      rfl
  | @rowPastWords k filter row kind positive reservable inside past =>
      have occupied : store.base.rows ≠ [] := by
        rw [← List.length_pos_iff, VectorBatch.length_rows]
        omega
      have ended := @candidates_of_past store query.vector (admitsAll filter) store.base.rows 0
        (comparable_of_fits fits) (by rw [VectorBatch.length_rows]; omega) occupied
        (by rw [VectorBatch.length_rows]; omega)
      rw [search_topK kind, topKSearch, if_neg (Nat.ne_of_gt positive), reserve,
        if_pos reservable, ended]
      rfl
  | @nearRowPastWords threshold row kind inside near past =>
      obtain ⟨hit, member, rfl⟩ := DistanceMetric.mem_within.mpr ⟨inside, near⟩
      have numbered := @idOf_within store query threshold counted
      -- A row that is found before may be past the words too, and then faults alike.
      have alike : ∀ other ∈ store.metric.within threshold query.vector 0 store.base.rows,
          ∀ cause, store.idOf other.1 = .error cause → cause = .arithmeticOverflow := by
        intro other otherMember cause failed
        rw [numbered other otherMember] at failed
        split at failed
        · cases failed
        · exact (Except.error.inj failed).symm
      rw [search_range kind, rangeSearch, idsWithin_eq_mapM (comparable_of_fits fits)]
      exact Failure.mapM_eq_error
        ⟨hit, member, (numbered hit member).trans (if_neg (Nat.not_lt.mpr past))⟩ alike

theorem search_of_no_fault
    (fits : store.base.count = 0 ∨ query.vector.length = store.base.dimension)
    (counted : store.base.count < wordLimit) (sound : ∀ fault, ¬SearchFault store query fault) :
    ∃ ids, store.search query = .ok ids := by
  cases kind : query.kind with
  | range threshold =>
      have fit : ∀ hit ∈ store.metric.within threshold query.vector 0 store.base.rows,
          store.idOf hit.1 = .ok (store.rowId hit.1) := by
        intro hit member
        rw [idOf_within counted hit member, if_pos]
        obtain ⟨inside, near⟩ := DistanceMetric.mem_within.mp ⟨hit, member, rfl⟩
        exact Nat.lt_of_not_le fun past => sound _ (.nearRowPastWords kind inside near past)
      rw [search_range kind, rangeSearch, idsWithin_eq_mapM (comparable_of_fits fits)]
      exact ⟨_, Failure.mapM_eq_ok fit⟩
  | topK k filter =>
      rw [search_topK kind]
      rcases Nat.eq_zero_or_pos k with rfl | positive
      · exact ⟨[], rfl⟩
      · have reservable : k * candidateSize ≤ allocationLimit :=
          Nat.le_of_not_lt fun large => sound _ (.heapTooLarge kind large)
        have numbered : ∀ row < store.base.count, row + store.idBase.toNat < wordLimit :=
          fun row inside => Nat.lt_of_not_le fun past =>
            sound _ (.rowPastWords kind positive reservable inside past)
        exact ⟨_, topKSearch_eq fits (count_add_idBase_le numbered) positive reservable⟩

theorem search_eq_error_iff
    (fits : store.base.count = 0 ∨ query.vector.length = store.base.dimension)
    (counted : store.base.count < wordLimit) :
    store.search query = .error fault ↔ SearchFault store query fault := by
  refine ⟨fun failed => ?_, search_of_fault fits counted⟩
  by_cases sound : ∀ other, ¬SearchFault store query other
  · obtain ⟨ids, found⟩ := search_of_no_fault fits counted sound
    cases found.symm.trans failed
  · obtain ⟨other, faulty⟩ := not_forall_not.mp sound
    cases (search_of_fault fits counted faulty).symm.trans failed
    exact faulty

theorem SearchFault.ne_lengthMismatch (faulty : SearchFault store query fault) :
    fault ≠ .lengthMismatch := by
  cases faulty <;> exact Fault.noConfusion

theorem topKSearch_all {k : Nat} {admits : UInt64 → Bool}
    (fits : store.base.count = 0 ∨ query.vector.length = store.base.dimension)
    (numbered : store.base.count + store.idBase.toNat ≤ wordLimit)
    (reservable : k * candidateSize ≤ allocationLimit) (enough : store.base.count ≤ k) :
    ∃ ids, store.topKSearch query.vector k admits = .ok ids ∧
      ids.Perm ((store.admittedRows admits).map store.rowId) := by
  rcases Nat.eq_zero_or_pos k with rfl | positive
  · have none : store.admittedRows admits = [] :=
      List.eq_nil_iff_forall_not_mem.mpr fun row member => by
        have inside := lt_count_of_mem_admittedRows member
        omega
    exact ⟨[], rfl, by rw [none]; exact .refl _⟩
  · have inside : ∀ row ∈ store.admittedRows admits, row < store.base.count :=
      fun _ => lt_count_of_mem_admittedRows
    obtain ⟨found, leftOut, kept, parted, length, -⟩ :=
      exists_nearest numbered inside positive query.vector
    have few : (store.admittedRows admits).length ≤ store.base.count := by
      rw [admittedRows]
      exact (List.length_filter_le _ _).trans_eq List.length_range
    have all : found.Perm (store.admittedRows admits) :=
      ((List.sublist_append_left _ _).subperm.trans parted.subperm).perm_of_length_le (by omega)
    refine ⟨_, topKSearch_eq fits numbered positive reservable, ?_⟩
    rw [kept, List.map_map]
    exact all.map store.rowId

end

/-! ## Submits -/

def Accepts (store : MemoryStore) (query : Query) : Prop :=
  store.closed = false ∧
    (store.base.count = 0 ∨ query.vector.length = store.base.dimension)

theorem reply_of_accepts {query : Query} (accepts : store.Accepts query) :
    (store.submit query).1 = (store.search query).mapError .fault := by
  rcases store.submit_cases query with ⟨closed, _⟩ | ⟨_, wrong, _⟩ | ⟨_, _, reply⟩
  · cases accepts.1.symm.trans closed
  · rcases accepts.2 with empty | same
    · exact absurd empty wrong.2
    · exact absurd same wrong.1
  · rw [reply]

theorem reply_of_not_accepts {query : Query} (refuses : ¬store.Accepts query) :
    ∃ error, (store.submit query).1 = .error (.error error) := by
  rcases store.submit_cases query with ⟨_, refusal⟩ | ⟨_, _, refusal⟩ | ⟨isOpen, fits, _⟩
  · exact ⟨_, congrArg Prod.fst refusal⟩
  · exact ⟨_, congrArg Prod.fst refusal⟩
  · exact absurd ⟨isOpen, by omega⟩ refuses

theorem submit_eq_fault_iff {query : Query} {fault : Fault}
    (counted : store.base.count < wordLimit) :
    (store.submit query).1 = .error (.fault fault) ↔
      store.Accepts query ∧ SearchFault store query fault := by
  by_cases accepts : store.Accepts query
  · rw [reply_of_accepts accepts, ← search_eq_error_iff accepts.2 counted]
    cases store.search query with
    | ok ids => simp
    | error other => simp [accepts]
  · obtain ⟨error, refusal⟩ := reply_of_not_accepts accepts
    simp [refusal, accepts]

/-- Whatever was done to a store before, a submit faults only if the store accepts the query, and
only for one of the reasons above; that the vectors cannot be measured is none of them. If a heap
can be reserved and every row has an identifier, the reply is an answer or a reported error, and a
search for no fewer rows than there are answers with all admitted ones. -/
theorem submit_faults_at_limits (store : MemoryStore) (query : Query)
    (counted : store.base.count < wordLimit) :
    let reply := (store.submit query).1
    (∀ fault, reply = .error (.fault fault) ↔
      store.Accepts query ∧ SearchFault store query fault) ∧
      reply ≠ .error (.fault .lengthMismatch) ∧
      ((∀ k filter, query.kind = .topK k filter → k * candidateSize ≤ allocationLimit) →
        (∀ row < store.base.count, row + store.idBase.toNat < wordLimit) →
        ((∃ ids, reply = .ok ids) ∨ ∃ error, reply = .error (.error error)) ∧
          ∀ k filter, query.kind = .topK k filter → store.Accepts query →
            store.base.count ≤ k →
            ∃ ids, reply = .ok ids ∧
              ids.Perm ((store.admittedRows (admitsAll filter)).map store.rowId)) := by
  intro reply
  have faults (fault : Fault) :
      reply = .error (.fault fault) ↔ store.Accepts query ∧ SearchFault store query fault :=
    submit_eq_fault_iff counted
  refine ⟨faults, fun mismatched => ((faults _).mp mismatched).2.ne_lengthMismatch rfl, ?_⟩
  intro reservable fit
  constructor
  · rcases answered : reply with (error | fault) | ids
    · exact .inr ⟨error, rfl⟩
    · -- Each reason for a fault contradicts one of the two limits.
      cases ((faults fault).mp answered).2 with
      | heapTooLarge kind large => exact absurd (reservable _ _ kind) (Nat.not_le.mpr large)
      | rowPastWords _ _ _ inside past => exact absurd (fit _ inside) (Nat.not_lt.mpr past)
      | nearRowPastWords _ inside _ past => exact absurd (fit _ inside) (Nat.not_lt.mpr past)
    · exact .inl ⟨ids, rfl⟩
  · intro k filter kind accepts enough
    obtain ⟨ids, found, all⟩ := @topKSearch_all store query k (admitsAll filter) accepts.2
      (count_add_idBase_le fit) (reservable k filter kind) enough
    refine ⟨ids, ?_, all⟩
    change (store.submit query).1 = _
    rw [reply_of_accepts accepts, search_topK kind, found]
    rfl

def nearestToZero (k : Nat) : Query where
  index := 0
  strategy := .indexScan
  kind := .topK k none
  vector := [⟨0⟩]

theorem fourOnLine_at_limits :
    (∃ ids, (fourOnLine.submit (nearestToZero 5)).1 = .ok ids ∧ ids.Perm [1, 2, 3, 4]) ∧
      (fourOnLine.submit (nearestToZero 18446744073709551615)).1 =
        .error (.fault .capacityExceeded) ∧
      ({ fourOnLine with idBase := 18446744073709551614 }.submit (nearestToZero 1)).1 =
        .error (.fault .arithmeticOverflow) := by
  obtain ⟨-, -, sound⟩ := submit_faults_at_limits fourOnLine (nearestToZero 5) (by decide)
  obtain ⟨faults, -, -⟩ :=
    submit_faults_at_limits fourOnLine (nearestToZero 18446744073709551615) (by decide)
  obtain ⟨faultsAtEnd, -, -⟩ := submit_faults_at_limits
    { fourOnLine with idBase := 18446744073709551614 } (nearestToZero 1) (by decide)
  refine ⟨?_, ?_, ?_⟩
  · have reservable : ∀ k filter, (nearestToZero 5).kind = .topK k filter →
        k * candidateSize ≤ allocationLimit := by
      rintro k filter ⟨⟩
      decide
    exact (sound reservable (by decide)).2 5 none rfl ⟨rfl, .inr rfl⟩ (by decide)
  · exact (faults _).mpr ⟨⟨rfl, .inr rfl⟩, .heapTooLarge rfl (by decide)⟩
  · exact (faultsAtEnd _).mpr ⟨⟨rfl, .inr rfl⟩,
      .rowPastWords rfl (by decide) (by decide) (show 2 < 4 by decide) (by decide)⟩

end MemoryStore

end RangeRecall
