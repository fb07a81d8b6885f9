import RangeRecall.GroundTruth.Basic

/-! Which parts make a ground truth. The offset check accepts exactly what the row offsets of a
ground truth are, and of two faults in the offsets it reports the first. -/

namespace RangeRecall

namespace GroundTruth

/-! ## Offsets -/

theorem firstDecrease?_eq_none {offsets : List UInt32} (increasing : offsets.Pairwise (· ≤ ·))
    (position : Nat) : firstDecrease? position offsets = none := by
  induction offsets generalizing position with
  | nil => rfl
  | cons first rest induction =>
      cases rest with
      | nil => rfl
      | cons second rest =>
          have parts := List.pairwise_cons.mp increasing
          have step : first ≤ second := parts.1 second List.mem_cons_self
          rw [firstDecrease?, if_neg (UInt32.not_lt.mpr step)]
          exact induction parts.2 (position + 1)

theorem checkOffsets_eq_ok_iff {offsets : List UInt32} :
    checkOffsets offsets = .ok () ↔
      offsets.head? = some 0 ∧ offsets.Pairwise (· ≤ ·) := by
  constructor
  · exact head?_and_pairwise_of_checkOffsets
  · intro ⟨head, increasing⟩
    cases offsets with
    | nil => cases head
    | cons first rest =>
        have isZero : first = 0 := Option.some.inj head
        simp [checkOffsets, isZero, firstDecrease?_eq_none (isZero ▸ increasing)]

theorem firstDecrease?_eq_some {start position : Nat} {offsets : List UInt32}
    {first second : UInt32}
    (found : firstDecrease? start offsets = some (position, first, second)) :
    ∃ index, position = start + index ∧ offsets[index]? = some first ∧
      offsets[index + 1]? = some second ∧ second < first ∧
      ∀ earlier < index, ∀ left right, offsets[earlier]? = some left →
        offsets[earlier + 1]? = some right → left ≤ right := by
  induction offsets generalizing start with
  | nil => simp [firstDecrease?] at found
  | cons head rest induction =>
      cases rest with
      | nil => simp [firstDecrease?] at found
      | cons next rest =>
          rw [firstDecrease?] at found
          split at found
          · rename_i decreases
            cases found
            exact ⟨0, rfl, rfl, rfl, decreases, fun _ before => absurd before (by omega)⟩
          · rename_i noDecrease
            rcases induction found with ⟨index, rfl, firstAt, secondAt, decreases, before⟩
            refine ⟨index + 1, by omega, firstAt, secondAt, decreases, ?_⟩
            intro earlier isBefore left right leftAt rightAt
            cases earlier with
            | zero =>
                cases leftAt
                cases rightAt
                exact UInt32.not_lt.mp noDecrease
            | succ earlier =>
                exact before earlier (by omega) left right leftAt rightAt

theorem firstDecrease?_eq_of_first {start position : Nat} {offsets : List UInt32}
    {first second : UInt32} (firstAt : offsets[position]? = some first)
    (secondAt : offsets[position + 1]? = some second) (decreases : second < first)
    (before : ∀ earlier < position, ∀ left right, offsets[earlier]? = some left →
      offsets[earlier + 1]? = some right → left ≤ right) :
    firstDecrease? start offsets = some (start + position, first, second) := by
  induction offsets generalizing start position with
  | nil => cases firstAt
  | cons head rest induction =>
      cases rest with
      | nil => cases secondAt
      | cons next rest =>
          rw [firstDecrease?]
          cases position with
          | zero =>
              cases firstAt
              cases secondAt
              rw [if_pos decreases, Nat.add_zero]
          | succ position =>
              have noDecrease : ¬next < head :=
                UInt32.not_lt.mpr (before 0 (Nat.succ_pos position) head next rfl rfl)
              have later : firstDecrease? (start + 1) (next :: rest) =
                  some (start + 1 + position, first, second) :=
                induction firstAt secondAt fun earlier isBefore =>
                  before (earlier + 1) (Nat.succ_lt_succ isBefore)
              rw [if_neg noDecrease, later, Nat.succ_add_eq_add_succ]

/-! ## All parts -/

theorem announced_eq {offsets : List UInt32} {total : Nat} (shape : RowOffsets offsets total) :
    announced offsets = total := by
  simp [announced, shape.2.2]

theorem le_of_mem_offsets {truth : GroundTruth} {offset : UInt32}
    (member : offset ∈ truth.offsets) : offset.toNat ≤ truth.neighborIds.length := by
  rcases truth.rowOffsets with ⟨-, increasing, last⟩
  rcases Option.map_eq_some_iff.mp last with ⟨stop, isLast, total⟩
  rcases List.getLast?_eq_some_iff.mp isLast with ⟨others, parts⟩
  rw [parts] at increasing member
  rcases List.mem_append.mp member with earlier | final
  · rw [← total]
    exact UInt32.le_iff_toNat_le.mp
      ((List.pairwise_append.mp increasing).2.2 offset earlier stop List.mem_cons_self)
  · rw [List.mem_singleton.mp final]
    exact Nat.le_of_eq total

theorem exists_row {truth : GroundTruth} {query : Nat} (inside : query < truth.queryCount) :
    ∃ first last, first ≤ last ∧ last ≤ truth.neighborIds.length ∧
      truth.neighbors query = .ok ((truth.neighborIds.drop first).take (last - first)) ∧
      truth.distances query = .ok ((truth.neighborDistances.drop first).take (last - first)) := by
  have nextInside : query + 1 < truth.offsets.length := Nat.add_lt_of_lt_sub inside
  have ascend : truth.offsets[query].toNat ≤ truth.offsets[query + 1].toNat :=
    UInt32.le_iff_toNat_le.mp (List.pairwise_iff_getElem.mp truth.rowOffsets.2.1 query (query + 1)
      _ nextInside (Nat.lt_succ_self query))
  have within : truth.offsets[query + 1].toNat ≤ truth.neighborIds.length :=
    le_of_mem_offsets (List.getElem_mem nextInside)
  have range : truth.rowRange query =
      .ok (truth.offsets[query].toNat, truth.offsets[query + 1].toNat) := by
    simp only [rowRange, List.getElem?_eq_getElem nextInside,
      List.getElem?_eq_getElem (Nat.lt_of_succ_lt nextInside)]
  refine ⟨_, _, ascend, within, ?_, ?_⟩
  · rw [neighbors, range]
    exact if_pos ⟨ascend, within⟩
  · rw [distances, range]
    exact if_pos ⟨ascend, truth.length_distances ▸ within⟩

theorem row_of_behind {truth : GroundTruth} {query : Nat} (behind : truth.queryCount ≤ query) :
    truth.neighbors query = .error .indexOutOfRange ∧
      truth.distances query = .error .indexOutOfRange := by
  have none : truth.offsets[query + 1]? = none :=
    List.getElem?_eq_none (Nat.le_add_of_sub_le behind)
  have range : truth.rowRange query = .error .indexOutOfRange := by
    rw [rowRange, none]
    cases truth.offsets[query]? <;> rfl
  constructor
  · rw [neighbors, range]
    rfl
  · rw [distances, range]
    rfl

theorem ofParts_eq_ok {threshold : Binary32} {offsets neighborIds : List UInt32}
    {neighborDistances : List Binary32} {truth : GroundTruth}
    (built : ofParts threshold offsets neighborIds neighborDistances = .ok truth) :
    truth.threshold = threshold ∧ truth.offsets = offsets ∧ truth.neighborIds = neighborIds ∧
      truth.neighborDistances = neighborDistances := by
  unfold ofParts at built
  split at built
  · cases built
  · dsimp only at built
    split at built
    · split at built
      · cases built
        exact ⟨rfl, rfl, rfl, rfl⟩
      · cases built
    · cases built

theorem ofParts_self (truth : GroundTruth) :
    ofParts truth.threshold truth.offsets truth.neighborIds truth.neighborDistances =
      .ok truth := by
  have total := announced_eq truth.rowOffsets
  have accepted : checkOffsets truth.offsets = .ok () :=
    checkOffsets_eq_ok_iff.mpr ⟨truth.rowOffsets.1, truth.rowOffsets.2.1⟩
  unfold ofParts
  split
  · rename_i cause refused
    rw [accepted] at refused
    cases refused
  · dsimp only
    rw [dif_pos total.symm, dif_pos (truth.length_distances.trans total.symm)]

theorem exists_ofParts {offsets neighborIds : List UInt32} {neighborDistances : List Binary32}
    (shape : RowOffsets offsets neighborIds.length)
    (lengths : neighborDistances.length = neighborIds.length) (threshold : Binary32) :
    ∃ truth, ofParts threshold offsets neighborIds neighborDistances = .ok truth := by
  have accepted := ofParts_self {
    threshold := threshold
    offsets := offsets
    neighborIds := neighborIds
    neighborDistances := neighborDistances
    rowOffsets := shape
    length_distances := lengths }
  exact ⟨_, accepted⟩

end GroundTruth

end RangeRecall
