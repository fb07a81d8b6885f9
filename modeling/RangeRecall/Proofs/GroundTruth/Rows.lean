import RangeRecall.Proofs.GroundTruth.Parts

/-! Compressed rows give back the lists that they were made from. The end of a row is the number
of items in the rows up to it, so a row is cut out of the flat list by two neighboring offsets. -/

namespace RangeRecall

namespace GroundTruth

/-! ## Row ends -/

@[simp] theorem length_rowEnds (start : Nat) (rows : List (List α)) :
    (rowEnds start rows).length = rows.length := by
  induction rows generalizing start with
  | nil => rfl
  | cons row rest induction => simp [rowEnds, induction]

theorem getElem?_rowEnds (start : Nat) (rows : List (List α)) {index : Nat}
    (inside : index ≤ rows.length) :
    (start :: rowEnds start rows)[index]? =
      some (start + (rows.take index).flatten.length) := by
  induction rows generalizing start index with
  | nil =>
      have first : index = 0 := Nat.le_zero.mp inside
      simp [first]
  | cons row rest induction =>
      cases index with
      | zero => simp
      | succ index =>
          have later := induction (start + row.length) (Nat.le_of_succ_le_succ inside)
          simp only [rowEnds, List.getElem?_cons_succ, later, List.take_succ_cons,
            List.flatten_cons, List.length_append, Nat.add_assoc]

theorem le_of_mem_rowEnds {start stop : Nat} {rows : List (List α)}
    (member : stop ∈ rowEnds start rows) : start ≤ stop ∧ stop ≤ start + rows.flatten.length := by
  induction rows generalizing start with
  | nil => cases member
  | cons row rest induction =>
      rw [List.flatten_cons, List.length_append]
      rcases List.mem_cons.mp member with rfl | member
      · omega
      · have bounds := induction member
        omega

theorem pairwise_rowEnds (start : Nat) (rows : List (List α)) :
    (start :: rowEnds start rows).Pairwise (· ≤ ·) := by
  induction rows generalizing start with
  | nil => exact List.pairwise_singleton _ _
  | cons row rest induction =>
      exact List.pairwise_cons.mpr
        ⟨fun stop member => (le_of_mem_rowEnds member).1, induction (start + row.length)⟩

theorem rowOffsets_rowEnds {rows : List (List α)} (fits : rows.flatten.length < fieldLimit) :
    RowOffsets ((0 :: rowEnds 0 rows).map UInt32.ofNat) rows.flatten.length := by
  have bounded {stop : Nat} (member : stop ∈ 0 :: rowEnds 0 rows) :
      (UInt32.ofNat stop).toNat = stop := by
    have le : stop ≤ rows.flatten.length := by
      rcases List.mem_cons.mp member with rfl | member
      · exact Nat.zero_le _
      · have bounds := le_of_mem_rowEnds member
        omega
    exact UInt32.toNat_ofNat_of_lt' (Nat.lt_of_le_of_lt le fits)
  have last : (0 :: rowEnds 0 rows).getLast? = some rows.flatten.length := by
    rw [List.getLast?_eq_getElem?, List.length_cons, length_rowEnds, Nat.add_sub_cancel,
      getElem?_rowEnds 0 rows (Nat.le_refl _), List.take_length, Nat.zero_add]
  refine ⟨rfl, ?_, ?_⟩
  · rw [List.pairwise_map]
    apply (pairwise_rowEnds 0 rows).imp_of_mem
    intro before after first second le
    rw [UInt32.le_iff_toNat_le, bounded first, bounded second]
    exact le
  · rw [List.getLast?_map, last, Option.map_some, Option.map_some,
      bounded (List.mem_of_getLast? last)]

theorem take_drop_flatten (rows : List (List α)) {index : Nat} (inside : index < rows.length) :
    (rows.flatten.drop (rows.take index).flatten.length).take rows[index].length =
      rows[index] := by
  have parts : rows.flatten =
      (rows.take index).flatten ++ (rows[index] ++ (rows.drop (index + 1)).flatten) := by
    rw [← List.flatten_cons, List.getElem_cons_drop, ← List.flatten_append,
      List.take_append_drop]
  rw [parts, List.drop_left, List.take_left]

theorem length_flatten_take_le (rows : List (List α)) (index : Nat) :
    (rows.take index).flatten.length ≤ rows.flatten.length := by
  have parts : rows.flatten.length =
      (rows.take index).flatten.length + (rows.drop index).flatten.length := by
    rw [← List.length_append, ← List.flatten_append, List.take_append_drop]
  omega

/-! ## Ground truths from rows -/

variable {threshold : Binary32} {rows : List (List (UInt32 × Binary32))} {truth : GroundTruth}

theorem ofRows_eq (fits : rows.flatten.length < fieldLimit) :
    ofRows threshold rows =
      (ofParts threshold ((0 :: rowEnds 0 rows).map UInt32.ofNat) (rows.flatten.map Prod.fst)
        (rows.flatten.map Prod.snd)).mapError .format := by
  have within : ¬(rowEnds 0 rows).any (fieldLimit ≤ ·) = true := by
    simp only [List.any_eq_true, decide_eq_true_eq, not_exists, not_and]
    intro stop member tooMany
    have bounds := le_of_mem_rowEnds member
    omega
  unfold ofRows
  dsimp only
  rw [if_neg within]
  rfl

theorem ofRows_of_tooMany (tooMany : fieldLimit ≤ rows.flatten.length) :
    ofRows threshold rows = .error (.invalidParameter .tooManyNeighbors) := by
  have last := getElem?_rowEnds 0 rows (Nat.le_refl rows.length)
  rw [List.take_length, Nat.zero_add] at last
  have exceeded : (rowEnds 0 rows).any (fieldLimit ≤ ·) = true := by
    rcases List.mem_cons.mp (List.mem_of_getElem? last) with none | member
    · rw [none] at tooMany
      exact absurd tooMany (by decide)
    · exact List.any_eq_true.mpr ⟨_, member, decide_eq_true tooMany⟩
  unfold ofRows
  dsimp only
  rw [if_pos exceeded]

theorem ofRows_eq_ok (built : ofRows threshold rows = .ok truth) :
    rows.flatten.length < fieldLimit ∧ truth.threshold = threshold ∧
      truth.offsets = (0 :: rowEnds 0 rows).map UInt32.ofNat ∧
      truth.neighborIds = rows.flatten.map Prod.fst ∧
      truth.neighborDistances = rows.flatten.map Prod.snd := by
  by_cases fits : rows.flatten.length < fieldLimit
  · rw [ofRows_eq fits] at built
    refine ⟨fits, ?_⟩
    cases parts : ofParts threshold ((0 :: rowEnds 0 rows).map UInt32.ofNat)
        (rows.flatten.map Prod.fst) (rows.flatten.map Prod.snd) with
    | error cause =>
        rw [parts] at built
        cases built
    | ok result =>
        rw [parts] at built
        cases built
        exact ofParts_eq_ok parts
  · rw [ofRows_of_tooMany (Nat.le_of_not_lt fits)] at built
    cases built

theorem exists_ofRows (threshold : Binary32) (fits : rows.flatten.length < fieldLimit) :
    ∃ truth, ofRows threshold rows = .ok truth := by
  have lengths : (rows.flatten.map Prod.snd).length = (rows.flatten.map Prod.fst).length := by
    rw [List.length_map, List.length_map]
  have shape : RowOffsets ((0 :: rowEnds 0 rows).map UInt32.ofNat)
      (rows.flatten.map Prod.fst).length := by
    rw [List.length_map]
    exact rowOffsets_rowEnds fits
  rcases exists_ofParts shape lengths threshold with ⟨truth, built⟩
  exact ⟨truth, by rw [ofRows_eq fits, built]; rfl⟩

theorem queryCount_ofRows (built : ofRows threshold rows = .ok truth) :
    truth.queryCount = rows.length := by
  simp [queryCount, (ofRows_eq_ok built).2.2.1]

theorem rowRange_ofRows (built : ofRows threshold rows = .ok truth) {index : Nat}
    (inside : index < rows.length) :
    truth.rowRange index =
      .ok ((rows.take index).flatten.length,
        (rows.take index).flatten.length + rows[index].length) := by
  have parts := ofRows_eq_ok built
  have offsetAt {place : Nat} (within : place ≤ rows.length) :
      truth.offsets[place]?.map UInt32.toNat = some (rows.take place).flatten.length := by
    have fits : (rows.take place).flatten.length < fieldLimit :=
      Nat.lt_of_le_of_lt (length_flatten_take_le rows place) parts.1
    rw [parts.2.2.1, List.getElem?_map, getElem?_rowEnds 0 rows within]
    simp only [Option.map_some, Nat.zero_add, UInt32.toNat_ofNat_of_lt' fits]
  have begins := offsetAt (Nat.le_of_lt inside)
  have ends := offsetAt (Nat.succ_le_of_lt inside)
  rcases first : truth.offsets[index]? with _ | start
  · rw [first] at begins
    cases begins
  · rcases second : truth.offsets[index + 1]? with _ | stop
    · rw [Nat.succ_eq_add_one, second] at ends
      cases ends
    · rw [first] at begins
      rw [Nat.succ_eq_add_one, second] at ends
      rw [List.take_succ_eq_append_getElem inside] at ends
      simp only [Option.map_some, Option.some.injEq, List.flatten_append, List.length_append,
        List.flatten_cons, List.flatten_nil, List.append_nil] at begins ends
      simp only [rowRange, first, second, begins, ends]

theorem between_map_flatten (column : α → β) (lists : List (List α)) {index : Nat}
    (inside : index < lists.length) :
    between (lists.flatten.map column)
        ((lists.take index).flatten.length,
          (lists.take index).flatten.length + lists[index].length) =
      .ok (lists[index].map column) := by
  have stops := take_drop_flatten lists inside
  have room : (lists.take index).flatten.length + lists[index].length ≤
      lists.flatten.length := by
    have upTo := length_flatten_take_le lists (index + 1)
    simpa only [List.take_succ_eq_append_getElem inside, List.flatten_append,
      List.length_append, List.flatten_cons, List.flatten_nil, List.append_nil] using upTo
  rw [between, if_pos ⟨Nat.le_add_right _ _, by rw [List.length_map]; exact room⟩,
    Nat.add_sub_cancel_left, ← List.map_drop, ← List.map_take, stops]

theorem neighbors_ofRows (built : ofRows threshold rows = .ok truth) {index : Nat}
    (inside : index < rows.length) :
    truth.neighbors index = .ok (rows[index].map Prod.fst) := by
  rw [neighbors, rowRange_ofRows built inside, (ofRows_eq_ok built).2.2.2.1]
  exact between_map_flatten Prod.fst rows inside

theorem distances_ofRows (built : ofRows threshold rows = .ok truth) {index : Nat}
    (inside : index < rows.length) :
    truth.distances index = .ok (rows[index].map Prod.snd) := by
  rw [distances, rowRange_ofRows built inside, (ofRows_eq_ok built).2.2.2.2]
  exact between_map_flatten Prod.snd rows inside

end GroundTruth

end RangeRecall
