import RangeRecall.Proofs.Store.TopK

/-! The two searches of a store agree. A range search keeps the rows nearer than a threshold, a
top-k search the nearest rows, whatever their distances are. If every row is at some distance, the
rows nearer than a threshold come first among the nearest, so rows exactly at the threshold or at
the same distance as the last row found make no difference. -/

namespace RangeRecall

/-! ## Items that come first -/

section

variable {holds : α → Bool}

theorem filter_eq_take {items : List α}
    (closed : items.Pairwise fun earlier later => holds later = true → holds earlier = true) :
    items.filter holds = items.take (items.filter holds).length := by
  induction items with
  | nil => rfl
  | cons item rest induction =>
      have parts := List.pairwise_cons.mp closed
      cases first : holds item with
      | true =>
          rw [List.filter_cons_of_pos first, List.length_cons, List.take_succ_cons,
            ← induction parts.2]
      | false =>
          have none : rest.filter holds = [] :=
            List.filter_eq_nil_iff.mpr fun other member later => by
              cases first.symm.trans (parts.1 other member later)
          rw [List.filter_cons_of_neg (by simp [first]), none]
          rfl

/-- Items are found in an order in which those that hold come first, and are not left out for one
that does not. If so many are found that those that hold have room, these are the first found. -/
theorem take_found_perm_filter {found leftOut items : List α}
    (parted : (found ++ leftOut).Perm items)
    (closed : found.Pairwise fun earlier later => holds later = true → holds earlier = true)
    (preferred : ∀ item ∈ found, ∀ other ∈ leftOut, holds other = true → holds item = true)
    (room : (items.filter holds).length ≤ found.length) :
    (found.take (items.filter holds).length).Perm (items.filter holds) := by
  have split := parted.filter holds
  rw [List.filter_append] at split
  have none : leftOut.filter holds = [] := by
    -- An item left out for which there was no room would make all the found ones hold.
    refine List.filter_eq_nil_iff.mpr fun other member held => ?_
    have all : found.filter holds = found :=
      List.filter_eq_self.mpr fun item itemMember => preferred item itemMember other member held
    have lost : 0 < (leftOut.filter holds).length :=
      List.length_pos_of_mem (List.mem_filter.mpr ⟨member, held⟩)
    have counted := split.length_eq
    rw [all, List.length_append] at counted
    omega
  rw [none, List.append_nil] at split
  rw [← split.length_eq, ← filter_eq_take closed]
  exact split

end

namespace MemoryStore

variable {store : MemoryStore} {query : List Binary32} {threshold : Binary32}

/-! ## Rows below a threshold -/

def rowsBelow (store : MemoryStore) (query : List Binary32) (threshold : Binary32) : List Nat :=
  store.metric.nearRows threshold query store.base

theorem rangeSearch_eq_rowsBelow
    (fits : store.base.count = 0 ∨ query.length = store.base.dimension)
    (numbered : ∀ row < store.base.count, row + store.idBase.toNat < wordLimit) :
    store.rangeSearch query threshold =
      .ok ((store.rowsBelow query threshold).map store.rowId) :=
  rangeSearch_eq (comparable_of_fits fits) fun row near =>
    numbered row (DistanceMetric.mem_nearRows.mp near).1

theorem admittedRows_admitsAll (store : MemoryStore) :
    store.admittedRows (admitsAll none) = List.range store.base.count :=
  List.filter_eq_self.mpr fun _ _ => rfl

theorem isLess_of_rank_le {left right : Binary32} (measured : left.isNaN = false)
    (notFarther : left.rank ≤ right.rank) (below : right.isLess threshold = true) :
    left.isLess threshold = true := by
  obtain ⟨-, comparable, less⟩ := Binary32.isLess_iff.mp below
  exact Binary32.isLess_iff.mpr ⟨measured, comparable, Int.lt_of_le_of_lt notFarther less⟩

theorem take_nearest_perm_rowsBelow
    (numbered : store.base.count + store.idBase.toNat ≤ wordLimit)
    (measured : ∀ row < store.base.count, (store.rowDistance query row).isNaN = false)
    {k : Nat} (positive : 0 < k) (enough : (store.rowsBelow query threshold).length ≤ k) :
    ∃ found : List Nat,
      nearest k ((List.range store.base.count).map (store.candidate query)) =
        found.map (store.candidate query) ∧
      found.length = min k store.base.count ∧
      (found.take (store.rowsBelow query threshold).length).Perm
        (store.rowsBelow query threshold) := by
  have inside : ∀ row ∈ List.range store.base.count, row < store.base.count :=
    fun _ => List.mem_range.mp
  have allMeasured : ∀ row ∈ List.range store.base.count,
      (store.rowDistance query row).isNaN = false := fun row member =>
    measured row (inside row member)
  obtain ⟨found, leftOut, kept, parted, length, ordered⟩ :=
    exists_nearest numbered inside positive query
  obtain ⟨ascending, least⟩ := ordered allMeasured
  rw [List.length_range] at length
  have foundMeasured : ∀ row ∈ found, (store.rowDistance query row).isNaN = false :=
    fun row member => allMeasured row (parted.subset (List.mem_append_left _ member))
  have room : (store.rowsBelow query threshold).length ≤ found.length := by
    rw [length]
    exact Nat.le_min.mpr ⟨enough, DistanceMetric.length_nearRows_le⟩
  refine ⟨found, kept, length, take_found_perm_filter parted ?_ ?_ room⟩
  · exact ascending.imp_of_mem fun member _ notFarther =>
      isLess_of_rank_le (foundMeasured _ member) notFarther
  · intro row member other otherMember
    exact isLess_of_rank_le (foundMeasured row member) (least row member other otherMember)

/-- If every row is at some distance and has an identifier, what a range search finds are the first
identifiers of every top-k search for no fewer rows, up to their order, and all of them if just as
many rows are searched for. -/
theorem topKSearch_begins_with_rangeSearch (store : MemoryStore) (query : List Binary32)
    (threshold : Binary32)
    (fits : store.base.count = 0 ∨ query.length = store.base.dimension)
    (measured : ∀ row < store.base.count, (store.rowDistance query row).isNaN = false)
    (numbered : ∀ row < store.base.count, row + store.idBase.toNat < wordLimit) :
    ∃ ids, store.rangeSearch query threshold = .ok ids ∧
      ∀ k, ids.length ≤ k → k * candidateSize ≤ allocationLimit →
        ∃ nearest, store.topKSearch query k (admitsAll none) = .ok nearest ∧
          (nearest.take ids.length).Perm ids ∧
          (k = ids.length → nearest.Perm ids) := by
  have words := count_add_idBase_le numbered
  refine ⟨_, rangeSearch_eq_rowsBelow fits numbered, fun k enough reservable => ?_⟩
  rw [List.length_map] at enough ⊢
  rcases Nat.eq_zero_or_pos k with rfl | positive
  · have none : store.rowsBelow query threshold = [] :=
      List.length_eq_zero_iff.mp (Nat.le_zero.mp enough)
    exact ⟨[], rfl, by simp [none], by simp [none]⟩
  · obtain ⟨found, kept, length, perm⟩ :=
      take_nearest_perm_rowsBelow words measured positive enough
    have searched : store.topKSearch query k (admitsAll none) =
        .ok (found.map store.rowId) := by
      rw [topKSearch_eq fits words positive reservable, admittedRows_admitsAll, kept,
        List.map_map]
      rfl
    have first : ((found.map store.rowId).take (store.rowsBelow query threshold).length).Perm
        ((store.rowsBelow query threshold).map store.rowId) := by
      rw [← List.map_take]
      exact perm.map store.rowId
    refine ⟨_, searched, first, fun exactly => ?_⟩
    have whole : (found.map store.rowId).length ≤ (store.rowsBelow query threshold).length := by
      rw [List.length_map, length, exactly]
      exact Nat.min_le_left _ _
    rwa [List.take_of_length_le whole] at first

theorem fourOnLine_threshold_at_third :
    fourOnLine.rangeSearch [⟨0⟩] ⟨0x40000000⟩ = .ok [2, 3] ∧
      ∃ nearest, fourOnLine.topKSearch [⟨0⟩] 3 (admitsAll none) = .ok nearest ∧
        (nearest.take 2).Perm [2, 3] := by
  have measured : ∀ row < fourOnLine.base.count,
      (fourOnLine.rowDistance [⟨0⟩] row).isNaN = false := by decide +kernel
  have below : (fourOnLine.rowsBelow [⟨0⟩] ⟨0x40000000⟩).map fourOnLine.rowId = [2, 3] := by
    decide +kernel
  have found : fourOnLine.rangeSearch [⟨0⟩] ⟨0x40000000⟩ = .ok [2, 3] :=
    below ▸ rangeSearch_eq_rowsBelow (.inr rfl) (by decide)
  obtain ⟨ids, searched, agrees⟩ := topKSearch_begins_with_rangeSearch fourOnLine [⟨0⟩]
    ⟨0x40000000⟩ (.inr rfl) measured (by decide)
  cases found.symm.trans searched
  obtain ⟨nearest, nearestFound, first, -⟩ := agrees 3 (by decide) (by decide)
  exact ⟨found, nearest, nearestFound, first⟩

end MemoryStore

end RangeRecall
