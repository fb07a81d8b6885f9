import RangeRecall.Proofs.Failure
import RangeRecall.Proofs.Vector.Encoding
import RangeRecall.Proofs.Vector.Rows
import RangeRecall.Synthetic.Dataset

/-! Batches as lists of rows. The components of a batch are its rows one after another, whether the
rows are counted, cut off one by one or looked up by position, and a list of rows makes a batch
exactly if the rows have one positive length. -/

namespace RangeRecall

namespace VectorBatch

/-! ## Pieces -/

theorem flatten_pieces {length count : Nat} {items : List α}
    (size : items.length = count * length) : (pieces length count items).flatten = items := by
  induction count generalizing items with
  | zero =>
      rw [Nat.zero_mul] at size
      rw [List.eq_nil_of_length_eq_zero size]
      rfl
  | succ count induction =>
      have rest : (items.drop length).length = count * length := by
        rw [List.length_drop, size, Nat.succ_mul, Nat.add_sub_cancel]
      rw [pieces, List.flatten_cons, induction rest, List.take_append_drop]

theorem pieces_flatten {length : Nat} {rows : List (List α)}
    (uniform : ∀ row ∈ rows, row.length = length) :
    pieces length rows.length rows.flatten = rows := by
  induction rows with
  | nil => rfl
  | cons row rest induction =>
      have parts := List.forall_mem_cons.mp uniform
      rw [List.flatten_cons, List.length_cons, pieces, List.take_left' parts.1,
        List.drop_left' parts.1, induction parts.2]

theorem length_flatten_of_uniform {length : Nat} {rows : List (List α)}
    (uniform : ∀ row ∈ rows, row.length = length) :
    rows.flatten.length = rows.length * length := by
  induction rows with
  | nil => rw [List.length_nil, Nat.zero_mul]; rfl
  | cons row rest induction =>
      have parts := List.forall_mem_cons.mp uniform
      rw [List.flatten_cons, List.length_append, parts.1, induction parts.2, List.length_cons,
        Nat.succ_mul, Nat.add_comm]

/-- Cuts a list into pieces of a positive length and leaves out what is too short for one. -/
def wholePieces (length : Nat) (items : List α) : List (List α) :=
  pieces length (items.length / length) items

/-! ## Rows of a batch -/

/-- The components of the batch are its rows one after another. -/
structure IsRowMajor (batch : VectorBatch) : Prop where
  length_components : batch.components.length = batch.count * batch.dimension
  dimension_pos : 0 < batch.count → 0 < batch.dimension
  length_rows : batch.rows.length = batch.count
  length_row : ∀ row ∈ batch.rows, row.length = batch.dimension
  flatten_rows : batch.rows.flatten = batch.components
  rows_eq_take : batch.rows =
    (wholePieces (max batch.dimension 1) batch.components).take batch.count
  vectorAt : ∀ index < batch.count,
    ∃ row, batch.rows[index]? = some row ∧ batch.vectorAt index = .ok row

theorem rows_eq_take_wholePieces (batch : VectorBatch) : batch.rows =
    (wholePieces (max batch.dimension 1) batch.components).take batch.count := by
  rcases Nat.eq_zero_or_pos batch.dimension with zero | positive
  · rw [rows, batch.count_eq_zero zero]
    rfl
  · have whole : batch.components.length / batch.dimension = batch.count := by
      rw [batch.length_components, Nat.mul_div_cancel _ positive]
    rw [Nat.max_eq_left positive, wholePieces, whole, ← rows, ← batch.length_rows, List.take_length]

theorem isRowMajor (batch : VectorBatch) : batch.IsRowMajor where
  length_components := batch.length_components
  dimension_pos := fun some => Nat.pos_of_ne_zero fun zero =>
    Nat.ne_of_gt some (batch.count_eq_zero zero)
  length_rows := batch.length_rows
  length_row := fun _ => length_of_mem_rows
  flatten_rows := flatten_pieces batch.length_components
  rows_eq_take := batch.rows_eq_take_wholePieces
  vectorAt := fun _ inside => ⟨_, getElem?_rows inside, vectorAt_eq_row inside⟩

theorem eq_of_rows {batch other : VectorBatch} (rows : batch.rows = other.rows)
    (dimension : batch.dimension = other.dimension) : batch = other := by
  have count : batch.count = other.count := by rw [← length_rows, rows, length_rows]
  have components : batch.components = other.components := by
    rw [← batch.isRowMajor.flatten_rows, rows, other.isRowMajor.flatten_rows]
  cases batch
  cases other
  cases count
  cases dimension
  cases components
  rfl

/-! ## Ways to make a batch -/

theorem ofComponents_eq_ok_iff {count dimension : Nat} {components : List Binary32}
    {batch : VectorBatch} :
    ofComponents count dimension components = .ok batch ↔
      count * dimension < wordLimit ∧ batch.count = count ∧ batch.dimension = dimension ∧
        batch.components = components := by
  constructor
  · intro accepted
    refine ⟨?_, ofComponents_eq_ok accepted⟩
    unfold ofComponents at accepted
    split at accepted
    · cases accepted
    · split at accepted
      · cases accepted
      · rename_i fits
        exact Nat.lt_of_not_le fits
  · rintro ⟨fits, rfl, rfl, rfl⟩
    exact ofComponents_self batch fits

theorem lt_wordLimit_of_room {size : Nat} (room : 4 * size ≤ allocationLimit) :
    size < wordLimit := by
  simp only [allocationLimit, signedLimit, wordLimit] at *
  omega

theorem reserve_components_bind {α : Type} (size : Nat) (made : Attempt α) :
    (do
      if wordLimit ≤ size then
        throw (.fault .arithmeticOverflow)
      reserve size 4
      made : Attempt α) =
      if 4 * size ≤ allocationLimit then made
      else .error (.fault
        (if wordLimit ≤ size then .arithmeticOverflow else .capacityExceeded)) := by
  dsimp only
  by_cases large : wordLimit ≤ size
  · have tooMany : ¬4 * size ≤ allocationLimit :=
      fun room => Nat.not_le.mpr (lt_wordLimit_of_room room) large
    rw [if_pos large, if_neg tooMany, if_pos large]
    rfl
  · rw [if_neg large, reserve, Nat.mul_comm size 4]
    by_cases room : 4 * size ≤ allocationLimit
    · rw [if_pos room, if_pos room]
      rfl
    · rw [if_neg room, if_neg room, if_neg large]
      rfl

theorem random_eq (seed : UInt64) (position count dimension : Nat) :
    random seed position count dimension =
      if 4 * (count * dimension) ≤ allocationLimit then
        (ofComponents count dimension
          (Random.components seed position (count * dimension))).mapError .error
      else .error (.fault
        (if wordLimit ≤ count * dimension then .arithmeticOverflow else .capacityExceeded)) :=
  reserve_components_bind (count * dimension) _

theorem random_eq_ok {seed : UInt64} {position count dimension : Nat} {batch : VectorBatch}
    (made : random seed position count dimension = .ok batch) :
    batch.count = count ∧ batch.dimension = dimension ∧
      batch.components = Random.components seed position (count * dimension) := by
  rw [random_eq] at made
  split at made
  · exact ofComponents_eq_ok (Failure.mapError_eq_ok_iff.mp made)
  · cases made

/-! ## Batches of rows -/

def firstLength (rows : List (List Binary32)) : Nat :=
  (rows.head?.map List.length).getD 0

/-- The row at the position is not of the given length, unlike all rows before it. -/
structure IsFirstRagged (length : Nat) (rows : List (List Binary32)) (position : Nat)
    (row : List Binary32) : Prop where
  found : rows[position]? = some row
  ragged : row.length ≠ length
  before : ∀ earlier < position, ∀ other, rows[earlier]? = some other → other.length = length

theorem IsFirstRagged.cons {length position : Nat} {first row : List Binary32}
    {rows : List (List Binary32)} (same : first.length = length)
    (isFirst : IsFirstRagged length rows position row) :
    IsFirstRagged length (first :: rows) (position + 1) row where
  found := isFirst.found
  ragged := isFirst.ragged
  before := fun earlier isBefore other found => by
    cases earlier with
    | zero =>
        cases found
        exact same
    | succ earlier => exact isFirst.before earlier (Nat.lt_of_succ_lt_succ isBefore) other found

theorem firstRagged?_eq_none_iff {length start : Nat} {rows : List (List Binary32)} :
    firstRagged? length start rows = none ↔ ∀ row ∈ rows, row.length = length := by
  induction rows generalizing start with
  | nil => simp [firstRagged?]
  | cons row rest induction =>
      rw [firstRagged?, List.forall_mem_cons]
      split
      · rename_i same
        rw [induction]
        exact (and_iff_right same).symm
      · rename_i ragged
        exact ⟨nofun, fun parts => absurd parts.1 ragged⟩

theorem isFirstRagged_of_firstRagged? {length start index found : Nat}
    {rows : List (List Binary32)} (search : firstRagged? length start rows = some (index, found)) :
    ∃ position row, IsFirstRagged length rows position row ∧ index = start + position ∧
      found = row.length := by
  induction rows generalizing start with
  | nil => cases search
  | cons row rest induction =>
      rw [firstRagged?] at search
      split at search
      · rename_i same
        obtain ⟨position, other, isFirst, rfl, rfl⟩ := induction search
        exact ⟨position + 1, other, isFirst.cons same, Nat.succ_add_eq_add_succ start position, rfl⟩
      · rename_i ragged
        cases search
        have isFirst : IsFirstRagged length (row :: rest) 0 row :=
          ⟨rfl, ragged, fun _ isBefore => absurd isBefore (Nat.not_lt_zero _)⟩
        exact ⟨0, row, isFirst, rfl, rfl⟩

variable {rows : List (List Binary32)}

theorem ofRows_eq (room : 4 * (rows.length * firstLength rows) ≤ allocationLimit) :
    ofRows rows =
      match firstRagged? (firstLength rows) 0 rows with
      | some (row, length) =>
        .error (.error (.invalidParameter (.rowDimension row length (firstLength rows))))
      | none => (ofComponents rows.length (firstLength rows) rows.flatten).mapError .error :=
  (reserve_components_bind (rows.length * firstLength rows) _).trans (if_pos room)

theorem ofRows_eq_ok_iff (room : 4 * (rows.length * firstLength rows) ≤ allocationLimit)
    {batch : VectorBatch} :
    ofRows rows = .ok batch ↔ batch.rows = rows ∧ batch.dimension = firstLength rows := by
  rw [ofRows_eq room]
  constructor
  · intro made
    cases search : firstRagged? (firstLength rows) 0 rows with
    | some found =>
        rw [search] at made
        cases made
    | none =>
        rw [search] at made
        obtain ⟨count, dimension, components⟩ :=
          ofComponents_eq_ok (Failure.mapError_eq_ok_iff.mp made)
        refine ⟨?_, dimension⟩
        rw [VectorBatch.rows, count, dimension, components]
        exact pieces_flatten (firstRagged?_eq_none_iff.mp search)
  · rintro ⟨rfl, dimension⟩
    have uniform : ∀ row ∈ batch.rows, row.length = firstLength batch.rows :=
      fun _ member => (length_of_mem_rows member).trans dimension
    have fits : batch.count * batch.dimension < wordLimit := by
      rw [batch.length_rows, ← dimension] at room
      exact lt_wordLimit_of_room room
    rw [firstRagged?_eq_none_iff.mpr uniform, batch.isRowMajor.flatten_rows, batch.length_rows,
      ← dimension]
    dsimp only
    rw [ofComponents_self batch fits]
    rfl

theorem exists_rows_eq_iff :
    (∃ batch : VectorBatch, batch.rows = rows ∧ batch.dimension = firstLength rows) ↔
      (∀ row ∈ rows, row.length = firstLength rows) ∧ (rows ≠ [] → 0 < firstLength rows) := by
  constructor
  · rintro ⟨batch, rfl, dimension⟩
    refine ⟨fun _ member => (length_of_mem_rows member).trans dimension, fun some => ?_⟩
    rw [← dimension]
    apply batch.isRowMajor.dimension_pos
    rw [← batch.length_rows]
    exact List.length_pos_iff.mpr some
  · rintro ⟨uniform, positive⟩
    have empty : firstLength rows = 0 → rows.length = 0 := by
      intro zero
      cases rows with
      | nil => rfl
      | cons row rest => exact absurd zero (Nat.ne_of_gt (positive (List.cons_ne_nil _ _)))
    exact ⟨⟨rows.length, firstLength rows, rows.flatten, length_flatten_of_uniform uniform, empty⟩,
      pieces_flatten uniform, rfl⟩

theorem ofRows_of_ragged (room : 4 * (rows.length * firstLength rows) ≤ allocationLimit)
    (ragged : ¬∀ row ∈ rows, row.length = firstLength rows) :
    ∃ position row, IsFirstRagged (firstLength rows) rows position row ∧
      ofRows rows = .error (.error (.invalidParameter
        (.rowDimension position row.length (firstLength rows)))) := by
  rw [ofRows_eq room]
  cases search : firstRagged? (firstLength rows) 0 rows with
  | none => exact absurd (firstRagged?_eq_none_iff.mp search) ragged
  | some found =>
      obtain ⟨index, length⟩ := found
      obtain ⟨position, row, isFirst, rfl, rfl⟩ := isFirstRagged_of_firstRagged? search
      rw [Nat.zero_add]
      exact ⟨position, row, isFirst, rfl⟩

theorem firstLength_of_empty (empty : ∀ row ∈ rows, row = []) : firstLength rows = 0 := by
  cases rows with
  | nil => rfl
  | cons row rest =>
      rw [empty row List.mem_cons_self]
      rfl

theorem ofRows_of_empty (some : rows ≠ []) (empty : ∀ row ∈ rows, row = []) :
    ofRows rows = .error (.error (.format (.zeroDimension rows.length))) := by
  have length := firstLength_of_empty empty
  have room : 4 * (rows.length * firstLength rows) ≤ allocationLimit := by
    rw [length]
    exact Nat.zero_le _
  have uniform : ∀ row ∈ rows, row.length = firstLength rows := by
    intro row member
    rw [length, empty row member]
    rfl
  have flat : 0 = 0 ∧ 0 < rows.length := ⟨rfl, List.length_pos_iff.mpr some⟩
  rw [ofRows_eq room, firstRagged?_eq_none_iff.mpr uniform, length]
  dsimp only
  rw [ofComponents, dif_pos flat]
  rfl

/-- A batch is the list of its rows, wherever it comes from. Its components are the rows one after
another, and whether it is made of components, read from bytes or drawn at random, the components
are those that were given. Of rows that room can be reserved for, exactly those with one length
make a batch, which then has these rows; the length must be positive unless there are no rows. The
first row of another length is named, and empty rows alone are malformed. -/
theorem batch_is_its_rows :
    (∀ batch : VectorBatch, batch.IsRowMajor) ∧
    (∀ count dimension components batch,
      ofComponents count dimension components = .ok batch ↔
        count * dimension < wordLimit ∧ batch.count = count ∧ batch.dimension = dimension ∧
          batch.components = components) ∧
    (∀ source : Source, source.Reliable → ∀ requireNonEmpty batch next,
      read source requireNonEmpty = .ok (batch, next) → source.ahead = batch.encode) ∧
    (∀ seed position count dimension batch,
      random seed position count dimension = .ok batch →
        batch.count = count ∧ batch.dimension = dimension ∧
          batch.components = Random.components seed position (count * dimension)) ∧
    ∀ rows : List (List Binary32), 4 * (rows.length * firstLength rows) ≤ allocationLimit →
      (∀ batch, ofRows rows = .ok batch ↔
        batch.rows = rows ∧ batch.dimension = firstLength rows) ∧
      ((∃ batch, ofRows rows = .ok batch) ↔
        (∀ row ∈ rows, row.length = firstLength rows) ∧ (rows ≠ [] → 0 < firstLength rows)) ∧
      ((¬∀ row ∈ rows, row.length = firstLength rows) →
        ∃ position row, IsFirstRagged (firstLength rows) rows position row ∧
          ofRows rows = .error (.error (.invalidParameter
            (.rowDimension position row.length (firstLength rows))))) ∧
      (rows ≠ [] → (∀ row ∈ rows, row = []) →
        ofRows rows = .error (.error (.format (.zeroDimension rows.length)))) := by
  refine ⟨isRowMajor, fun _ _ _ _ => ofComponents_eq_ok_iff, ?_, fun _ _ _ _ _ => random_eq_ok, ?_⟩
  · intro source reliable _ batch _ accepted
    exact (encodes_iff.mp (encodes_of_read reliable accepted).1).2.2
  · intro rows room
    refine ⟨fun _ => ofRows_eq_ok_iff room, ?_, ofRows_of_ragged room, ofRows_of_empty⟩
    simp only [ofRows_eq_ok_iff room, exists_rows_eq_iff]

theorem rows_of_three_batches :
    let zero : Binary32 := { bits := 0 }
    let source : Source := { ahead := twoVectors.encode }
    (∃ next, read source true = .ok (twoVectors, next) ∧ source.ahead = twoVectors.encode) ∧
      (∃ batch, random 7 0 2 3 = .ok batch ∧ batch.components = Random.components 7 0 6 ∧
        batch.rows.flatten = batch.components) ∧
      (∃ batch, ofRows [[zero], [zero]] = .ok batch ∧ batch.rows = [[zero], [zero]]) ∧
      ofRows [[zero], [zero, zero], []] =
        .error (.error (.invalidParameter (.rowDimension 1 2 1))) ∧
      ofRows [[], []] = .error (.error (.format (.zeroDimension 2))) := by
  intro zero source
  obtain ⟨laws, _, ofBytes, ofWords, ofLists⟩ := batch_is_its_rows
  have reliable : source.Reliable := { neverFails := rfl, delivers := nofun }
  have encodes : twoVectors.Encodes source.ahead :=
    encodes_iff.mpr ⟨by decide, by decide, rfl⟩
  have accepted : read source true = .ok (twoVectors, source.advance source.ahead.length) :=
    read_of_encodes reliable encodes (by decide)
  refine ⟨⟨_, accepted, ofBytes source reliable true _ _ accepted⟩, ?_, ?_, ?_, ?_⟩
  · obtain ⟨batch, made⟩ : ∃ batch, random 7 0 2 3 = .ok batch :=
      ⟨⟨2, 3, Random.components 7 0 6, rfl, nofun⟩, rfl⟩
    exact ⟨batch, made, (ofWords 7 0 2 3 batch made).2.2, (laws batch).flatten_rows⟩
  · have law := ofLists [[zero], [zero]] (by decide)
    obtain ⟨batch, made⟩ := law.2.1.mpr ⟨by decide, by decide⟩
    exact ⟨batch, made, ((law.1 batch).mp made).1⟩
  · obtain ⟨position, row, isFirst, refused⟩ :=
      (ofLists [[zero], [zero, zero], []] (by decide)).2.2.1 (by decide)
    match position, isFirst with
    | 0, isFirst =>
        cases isFirst.found
        exact absurd rfl isFirst.ragged
    | 1, isFirst =>
        cases isFirst.found
        exact refused
    | _ + 2, isFirst =>
        have second := isFirst.before 1 (Nat.succ_lt_succ (Nat.succ_pos _)) [zero, zero] rfl
        exact absurd second (by decide)
  · exact (ofLists [[], []] (by decide)).2.2.2 (by decide) (by decide)

end VectorBatch

end RangeRecall
