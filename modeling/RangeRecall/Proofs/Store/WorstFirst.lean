import RangeRecall.Store.WorstFirst

/-! The heap with its worst item at the root. Whatever decides the order, its movements only
rearrange the items. If items are compared by rank, every movement restores the order of the
heap from one position at which it may be broken, so a heap that is offered items one by one
holds the least of them, and taking its roots off one after another sorts them. -/

namespace RangeRecall

namespace WorstFirst

variable {α : Type}

/-! ## The movements rearrange the items -/

section

variable (isLess : α → α → Bool)

theorem siftUp_perm (items : Array α) (position : Nat) (inside : position < items.size) :
    (siftUp isLess items position inside).Perm items := by
  fun_induction siftUp isLess items position inside with
  | case1 => exact .refl _
  | case2 items position inside notTop parent less induction =>
      exact induction.trans (Array.swap_perm _ _)
  | case3 => exact .refl _

theorem siftDown_perm (items : Array α) (position limit : Nat) (fits : limit ≤ items.size) :
    (siftDown isLess items position limit fits).Perm items := by
  fun_induction siftDown isLess items position limit fits with
  | case1 items position fits left bounds child less induction =>
      exact induction.trans (Array.swap_perm _ _)
  | case2 => exact .refl _
  | case3 => exact .refl _

theorem siftToBottom_perm (items : Array α) (position : Nat) (inside : position < items.size) :
    (siftToBottom isLess items position inside).Perm items := by
  fun_induction siftToBottom isLess items position inside with
  | case1 items position inside left bounds child induction =>
      exact induction.trans (Array.swap_perm _ _)
  | case2 items position inside => exact siftUp_perm isLess items position inside

theorem insert_perm (items : Array α) (item : α) :
    (insert isLess items item).toList.Perm (item :: items.toList) := by
  have moved := (siftUp_perm isLess (items.push item) items.size (by simp)).toList
  rw [Array.toList_push] at moved
  exact moved.trans (List.perm_append_singleton item items.toList)

theorem pop_perm (items : Array α) (last : Nat) (size : items.size = last + 1) :
    (items[last] :: items.pop.toList).Perm items.toList := by
  have nonempty : items.toList ≠ [] := by
    intro empty
    simp [← Array.length_toList, empty] at size
  have whole := List.dropLast_concat_getLast nonempty
  have lastItem : items.toList.getLast nonempty = items[last] := by
    simp [List.getLast_eq_getElem, size]
  rw [lastItem] at whole
  rw [Array.toList_pop]
  conv => rhs; rw [← whole]
  exact (List.perm_append_singleton _ _).symm

theorem lastToRoot_eq {items : Array α} (first : 0 < items.size)
    (last : items.size - 1 < items.size) (stays : 0 < items.pop.size) :
    items.pop.set 0 items[items.size - 1] stays = (items.swap 0 (items.size - 1)).pop := by
  apply Array.ext
  · simp
  · intro index inside _
    rw [Array.size_set, Array.size_pop] at inside
    have notLast : index ≠ items.size - 1 := Nat.ne_of_lt inside
    simp only [Array.getElem_set, Array.getElem_pop, Array.getElem_swap, notLast, if_false,
      eq_comm]

theorem lastToRoot_perm {items : Array α} (first : 0 < items.size)
    (last : items.size - 1 < items.size) :
    (items[0] :: (items.swap 0 (items.size - 1)).pop.toList).Perm items.toList := by
  have taken := pop_perm (items.swap 0 (items.size - 1)) (items.size - 1) (by simp; omega)
  rw [Array.getElem_swap_right] at taken
  exact taken.trans (Array.swap_perm _ _).toList

theorem removeRoot_perm {items : Array α} {root : α} (found : items[0]? = some root) :
    (root :: (removeRoot isLess items).toList).Perm items.toList := by
  obtain ⟨inside, rfl⟩ := Array.getElem?_eq_some_iff.mp found
  unfold removeRoot
  split
  · have last : items.size - 1 < items.size := by omega
    simp only [lastToRoot_eq inside last]
    exact ((siftToBottom_perm isLess _ 0 _).toList.cons _).trans (lastToRoot_perm inside last)
  · exact pop_perm items 0 (by omega)

theorem unwind_perm (items : Array α) (count : Nat) (fits : count ≤ items.size) :
    (unwind isLess items count fits).Perm items := by
  fun_induction unwind isLess items count fits with
  | case1 => exact .refl _
  | case2 => exact .refl _
  | case3 items count fits exchanged fitsExchanged induction =>
      exact (induction.trans (siftDown_perm isLess _ _ _ _)).trans (Array.swap_perm _ _)

theorem sorted_perm (items : Array α) : (sorted isLess items).Perm items :=
  unwind_perm isLess items items.size (Nat.le_refl _)

end

variable {isLess : α → α → Bool} {rank : α → Int}

/-! ## The movements restore the order -/

def Compares (isLess : α → α → Bool) (rank : α → Int) (items : List α) : Prop :=
  ∀ left ∈ items, ∀ right ∈ items, isLess left right = true ↔ rank left < rank right

theorem Compares.of_subset {items others : List α} (compares : Compares isLess rank items)
    (subset : others ⊆ items) : Compares isLess rank others :=
  fun _ leftMember _ rightMember => compares _ (subset leftMember) _ (subset rightMember)

theorem Compares.of_perm {items others : Array α} (compares : Compares isLess rank items.toList)
    (perm : others.Perm items) : Compares isLess rank others.toList :=
  compares.of_subset perm.toList.subset

/-- The rank at a position, zero outside the array. -/
def rankAt (rank : α → Int) (items : Array α) (position : Nat) : Int :=
  (items[position]?.map rank).getD 0

theorem rankAt_of_lt {items : Array α} {position : Nat} (inside : position < items.size) :
    rankAt rank items position = rank items[position] := by
  simp [rankAt, inside]

theorem rankAt_swap {items : Array α} {left right : Nat} (leftInside : left < items.size)
    (rightInside : right < items.size) (position : Nat) :
    rankAt rank (items.swap left right) position =
      if position = left then rankAt rank items right
      else if position = right then rankAt rank items left
      else rankAt rank items position := by
  rw [rankAt_of_lt leftInside, rankAt_of_lt rightInside, rankAt, rankAt, Array.getElem?_swap]
  by_cases atLeft : position = left
  · subst atLeft
    by_cases same : position = right
    · subst same
      simp
    · simp [Ne.symm same]
  · by_cases atRight : position = right
    · subst atRight
      simp [atLeft]
    · simp [atLeft, atRight, Ne.symm atLeft, Ne.symm atRight]

theorem Compares.isLess_iff {items : Array α} (compares : Compares isLess rank items.toList)
    {left right : Nat} (leftInside : left < items.size) (rightInside : right < items.size) :
    isLess items[left] items[right] = true ↔ rankAt rank items left < rankAt rank items right := by
  rw [rankAt_of_lt leftInside, rankAt_of_lt rightInside]
  exact compares _ (Array.getElem_mem_toList _) _ (Array.getElem_mem_toList _)

def IsHeap (rank : α → Int) (items : Array α) (limit : Nat) : Prop :=
  ∀ child, 0 < child → child < limit →
    rankAt rank items child ≤ rankAt rank items ((child - 1) / 2)

/-- Below `limit`, the order holds among all items but the one at `hole`, whose children are not
greater than its parent. -/
structure IsHeapAround (rank : α → Int) (items : Array α) (limit hole : Nat) : Prop where
  apart : ∀ child, 0 < child → child < limit → child ≠ hole → (child - 1) / 2 ≠ hole →
    rankAt rank items child ≤ rankAt rank items ((child - 1) / 2)
  across : 0 < hole → ∀ child, child < limit → 0 < child → (child - 1) / 2 = hole →
    rankAt rank items child ≤ rankAt rank items ((hole - 1) / 2)

def Covers (rank : α → Int) (items : Array α) (limit hole : Nat) : Prop :=
  ∀ child, 0 < child → child < limit → (child - 1) / 2 = hole →
    rankAt rank items child ≤ rankAt rank items hole

theorem IsHeapAround.isHeap {items : Array α} {limit hole : Nat}
    (around : IsHeapAround rank items limit hole) (covers : Covers rank items limit hole)
    (covered : 0 < hole → rankAt rank items hole ≤ rankAt rank items ((hole - 1) / 2)) :
    IsHeap rank items limit := by
  intro child positive below
  by_cases here : child = hole
  · subst here
    exact covered positive
  · by_cases under : (child - 1) / 2 = hole
    · rw [under]
      exact covers child positive below under
    · exact around.apart child positive below here under

theorem IsHeapAround.raise {items : Array α} {limit hole : Nat}
    (around : IsHeapAround rank items limit hole) (notTop : 0 < hole) (inside : hole < items.size)
    (greater : rankAt rank items ((hole - 1) / 2) < rankAt rank items hole) :
    IsHeapAround rank (items.swap ((hole - 1) / 2) hole) limit ((hole - 1) / 2) ∧
      Covers rank (items.swap ((hole - 1) / 2) hole) limit ((hole - 1) / 2) := by
  refine ⟨⟨?_, ?_⟩, ?_⟩
  · intro child positive childBelow apart notUnder
    simp only [rankAt_swap]
    have aside := around.apart child positive childBelow
    have bridge := around.across notTop child childBelow positive
    grind
  · intro parentPositive child childBelow positive under
    simp only [rankAt_swap]
    have parentAside :=
      around.apart ((hole - 1) / 2) parentPositive (by omega) (by omega) (by omega)
    have aside := around.apart child positive childBelow
    grind
  · intro child positive childBelow under
    simp only [rankAt_swap]
    have aside := around.apart child positive childBelow
    grind

theorem IsHeapAround.lower {items : Array α} {limit hole child : Nat}
    (around : IsHeapAround rank items limit hole) (positive : 0 < child)
    (under : (child - 1) / 2 = hole) (below : child < limit) (inside : child < items.size)
    (greatest : ∀ other, 0 < other → other < limit → (other - 1) / 2 = hole →
      rankAt rank items other ≤ rankAt rank items child) :
    IsHeapAround rank (items.swap hole child) limit child := by
  constructor
  · intro other otherPositive otherBelow apart notUnder
    simp only [rankAt_swap]
    have aside := around.apart other otherPositive otherBelow
    have bridge := fun holePositive => around.across holePositive child below positive under
    have sibling := greatest other otherPositive otherBelow
    grind
  · intro _ other otherBelow otherPositive otherUnder
    simp only [rankAt_swap]
    have aside := around.apart other otherPositive otherBelow
    grind

theorem IsHeap.exchange {items : Array α} {last : Nat} (heap : IsHeap rank items (last + 1))
    (first : 0 < items.size) (inside : last < items.size) :
    IsHeapAround rank (items.swap 0 last) last 0 := by
  constructor
  · intro child positive below apart notUnder
    rw [rankAt_swap, rankAt_swap]
    have ordered := heap child positive (Nat.lt_succ_of_lt below)
    grind
  · intro positive
    exact absurd positive (Nat.lt_irrefl 0)

theorem siftUp_isHeap {items : Array α} {position : Nat} {inside : position < items.size}
    (compares : Compares isLess rank items.toList)
    (around : IsHeapAround rank items items.size position)
    (covers : Covers rank items items.size position) :
    IsHeap rank (siftUp isLess items position inside) items.size := by
  fun_induction siftUp isLess items position inside with
  | case1 items inside => exact around.isHeap covers (absurd · (Nat.lt_irrefl 0))
  | case2 items position inside notTop parent less induction =>
      have greater := (compares.isLess_iff (by omega) inside).mp less
      have raised := around.raise (by omega) inside greater
      rw [Array.size_swap] at induction
      exact induction (compares.of_perm (Array.swap_perm _ _)) raised.1 raised.2
  | case3 items position inside notTop parent notLess =>
      have notGreater := mt (compares.isLess_iff (by omega) inside).mpr notLess
      exact around.isHeap covers fun _ => Int.not_lt.mp notGreater

theorem greaterChild_spec {items : Array α} {position limit : Nat} (fits : limit ≤ items.size)
    (left : 2 * position + 1 < limit) (compares : Compares isLess rank items.toList) :
    let child := greaterChild isLess items position limit fits left
    (child - 1) / 2 = position ∧ ∀ other, 0 < other → other < limit → (other - 1) / 2 = position →
      rankAt rank items other ≤ rankAt rank items child := by
  have children (other : Nat) (positive : 0 < other) (under : (other - 1) / 2 = position) :
      other = 2 * position + 1 ∨ other = 2 * position + 2 := by omega
  unfold greaterChild
  split
  · rename_i right
    have compared := compares.isLess_iff (Nat.lt_of_lt_of_le right fits)
      (Nat.lt_of_lt_of_le left fits)
    split
    · rename_i rightLess
      have less := compared.mp rightLess
      refine ⟨by omega, fun other positive below under => ?_⟩
      rcases children other positive under with rfl | rfl
      · exact Int.le_refl _
      · exact Int.le_of_lt less
    · rename_i rightNotLess
      have notLess := mt compared.mpr rightNotLess
      refine ⟨by omega, fun other positive below under => ?_⟩
      rcases children other positive under with rfl | rfl
      · exact Int.not_lt.mp notLess
      · exact Int.le_refl _
  · rename_i single
    refine ⟨by omega, fun other positive below under => ?_⟩
    rcases children other positive under with rfl | rfl
    · exact Int.le_refl _
    · exact absurd below single

theorem siftToBottom_isHeap {items : Array α} {position : Nat} {inside : position < items.size}
    (compares : Compares isLess rank items.toList)
    (around : IsHeapAround rank items items.size position) :
    IsHeap rank (siftToBottom isLess items position inside) items.size := by
  fun_induction siftToBottom isLess items position inside with
  | case1 items position inside left bounds child induction =>
      have greatest := greaterChild_spec (Nat.le_refl _) left compares
      have lowered := around.lower (by omega) greatest.1 bounds.2 bounds.2 greatest.2
      rw [Array.size_swap] at induction
      exact induction (compares.of_perm (Array.swap_perm _ _)) lowered
  | case2 items position inside leaf =>
      have covers : Covers rank items items.size position :=
        fun child positive below under => absurd below (by omega)
      exact siftUp_isHeap compares around covers

theorem siftDown_isHeap {items : Array α} {position limit : Nat} {fits : limit ≤ items.size}
    (compares : Compares isLess rank items.toList)
    (around : IsHeapAround rank items limit position)
    (covered : 0 < position → rankAt rank items position ≤ rankAt rank items ((position - 1) / 2)) :
    IsHeap rank (siftDown isLess items position limit fits) limit := by
  fun_induction siftDown isLess items position limit fits with
  | case1 items position fits left bounds child less induction =>
      have greatest := greaterChild_spec fits left compares
      have below := bounds.2
      have inside : child < items.size := Nat.lt_of_lt_of_le bounds.2 fits
      have greater := (compares.isLess_iff (by omega) inside).mp less
      have lowered := around.lower (by omega) greatest.1 bounds.2 inside greatest.2
      apply induction (compares.of_perm (Array.swap_perm _ _)) lowered
      intro _
      simp only [rankAt_swap]
      grind
  | case2 items position fits left bounds child notLess =>
      have greatest := greaterChild_spec fits left compares
      have inside : child < items.size := Nat.lt_of_lt_of_le bounds.2 fits
      have notGreater := mt (compares.isLess_iff (by omega) inside).mpr notLess
      have covers : Covers rank items limit position := fun other positive below under =>
        Int.le_trans (greatest.2 other positive below under) (Int.not_lt.mp notGreater)
      exact around.isHeap covers covered
  | case3 items position fits leaf =>
      have covers : Covers rank items limit position :=
        fun child positive below under => absurd below (by omega)
      exact around.isHeap covers covered

theorem IsHeap.le_root {items : Array α} {limit : Nat} (heap : IsHeap rank items limit)
    (position : Nat) (below : position < limit) :
    rankAt rank items position ≤ rankAt rank items 0 := by
  induction position using Nat.strongRecOn with
  | ind position induction =>
      rcases Nat.eq_zero_or_pos position with rfl | positive
      · exact Int.le_refl _
      · have parent := heap position positive below
        have ancestors := induction ((position - 1) / 2) (by omega) (by omega)
        exact Int.le_trans parent ancestors

theorem insert_isHeap {items : Array α} {item : α}
    (compares : Compares isLess rank (item :: items.toList)) (heap : IsHeap rank items items.size) :
    IsHeap rank (insert isLess items item) (insert isLess items item).size := by
  have kept (position : Nat) (below : position < items.size) :
      rankAt rank (items.push item) position = rankAt rank items position := by
    rw [rankAt, rankAt, Array.getElem?_push_lt below, Array.getElem?_eq_getElem below]
  have around : IsHeapAround rank (items.push item) (items.push item).size items.size := by
    rw [Array.size_push]
    constructor
    · intro child positive below apart _
      rw [kept child (by omega), kept _ (by omega)]
      exact heap child positive (by omega)
    · intro positive child below _ under
      omega
  have covers : Covers rank (items.push item) (items.push item).size items.size := by
    rw [Array.size_push]
    intro child positive below under
    omega
  have pushed : Compares isLess rank (items.push item).toList := by
    rw [Array.toList_push]
    exact compares.of_subset (List.perm_append_singleton item items.toList).subset
  rw [insert, (siftUp_perm _ _ _ _).size_eq]
  exact siftUp_isHeap pushed around covers

theorem removeRoot_isHeap {items : Array α} (compares : Compares isLess rank items.toList)
    (heap : IsHeap rank items items.size) :
    IsHeap rank (removeRoot isLess items) (removeRoot isLess items).size := by
  unfold removeRoot
  split
  · have first : 0 < items.size := by omega
    have last : items.size - 1 < items.size := by omega
    simp only [lastToRoot_eq first last]
    rw [(siftToBottom_perm _ _ _ _).size_eq]
    have size : (items.swap 0 (items.size - 1)).pop.size = items.size - 1 := by simp
    have popped (position : Nat) (below : position < items.size - 1) :
        rankAt rank (items.swap 0 (items.size - 1)).pop position =
          rankAt rank (items.swap 0 (items.size - 1)) position := by
      simp only [rankAt, Array.getElem?_pop, Array.size_swap, below, if_true]
    have whole : items.size - 1 + 1 = items.size := by omega
    -- Only the last item, which is at the root now, can be out of order.
    have exchanged : IsHeapAround rank (items.swap 0 (items.size - 1)) (items.size - 1) 0 :=
      IsHeap.exchange (whole.symm ▸ heap) first last
    have around : IsHeapAround rank (items.swap 0 (items.size - 1)).pop
        (items.swap 0 (items.size - 1)).pop.size 0 := by
      rw [size]
      constructor
      · intro child positive below apart notUnder
        rw [popped child below, popped _ (by omega)]
        exact exchanged.apart child positive below apart notUnder
      · intro positive
        exact absurd positive (Nat.lt_irrefl 0)
    have fewer : Compares isLess rank (items.swap 0 (items.size - 1)).pop.toList :=
      compares.of_subset
        (List.Subset.trans (List.subset_cons_self _ _) (lastToRoot_perm first last).subset)
    exact siftToBottom_isHeap fewer around
  · intro child positive below
    simp at below
    omega

/-! ## Taking the roots off -/

theorem siftDown_le {items : Array α} {position limit : Nat} {fits : limit ≤ items.size}
    {bound : Int} (bounded : ∀ index < limit, rankAt rank items index ≤ bound) :
    ∀ index < limit,
      rankAt rank (siftDown isLess items position limit fits) index ≤ bound := by
  fun_induction siftDown isLess items position limit fits with
  | case1 items position fits left bounds child less induction =>
      apply induction
      intro index below
      have atPosition := bounded position (by omega)
      have atChild := bounded child bounds.2
      have atIndex := bounded index below
      rw [rankAt_swap]
      grind
  | case2 => exact bounded
  | case3 => exact bounded

theorem rankAt_siftDown {items : Array α} {position limit : Nat} {fits : limit ≤ items.size}
    {index : Nat} (beyond : limit ≤ index) :
    rankAt rank (siftDown isLess items position limit fits) index = rankAt rank items index := by
  fun_induction siftDown isLess items position limit fits with
  | case1 items position fits left bounds child less induction =>
      rw [induction, rankAt_swap, if_neg (by omega), if_neg (by omega)]
  | case2 => rfl
  | case3 => rfl

def AscendsFrom (rank : α → Int) (items : Array α) (start : Nat) : Prop :=
  ∀ left right, left < right → start ≤ right → right < items.size →
    rankAt rank items left ≤ rankAt rank items right

theorem AscendsFrom.exchange {items : Array α} {last : Nat}
    (ascends : AscendsFrom rank items (last + 1)) (heap : IsHeap rank items (last + 1))
    (first : 0 < items.size) (inside : last < items.size) (fits : last ≤ (items.swap 0 last).size) :
    AscendsFrom rank (siftDown isLess (items.swap 0 last) 0 last fits) last := by
  intro left right before start below
  rw [(siftDown_perm _ _ _ _ _).size_eq, Array.size_swap] at below
  have root := heap.le_root
  have later := fun index before start => ascends index right before start below
  rw [rankAt_siftDown start]
  by_cases within : left < last
  · have bounded : ∀ index < last, rankAt rank (items.swap 0 last) index ≤
        rankAt rank (items.swap 0 last) right := by
      intro index isBelow
      rw [rankAt_swap, rankAt_swap]
      grind
    exact siftDown_le bounded left within
  · rw [rankAt_siftDown (by omega), rankAt_swap, rankAt_swap]
    grind

theorem unwind_ascends {items : Array α} {count : Nat} {fits : count ≤ items.size}
    (compares : Compares isLess rank items.toList) (heap : IsHeap rank items count)
    (ascends : AscendsFrom rank items count) :
    AscendsFrom rank (unwind isLess items count fits) 0 := by
  fun_induction unwind isLess items count fits with
  | case1 => exact ascends
  | case2 items fits => exact fun left right before _ => ascends left right before (by omega)
  | case3 items count fits exchanged fitsExchanged induction =>
      have first : 0 < items.size := by omega
      have inside : count + 1 < items.size := by omega
      have perm : exchanged.Perm items := Array.swap_perm _ _
      apply induction ((compares.of_perm perm).of_perm (siftDown_perm _ _ _ _ _))
      · apply siftDown_isHeap (compares.of_perm perm) (heap.exchange first inside)
        intro positive
        exact absurd positive (Nat.lt_irrefl 0)
      · exact ascends.exchange heap first inside fitsExchanged

theorem sorted_ascends {items : Array α} (compares : Compares isLess rank items.toList)
    (heap : IsHeap rank items items.size) :
    (sorted isLess items).toList.Pairwise fun left right => rank left ≤ rank right := by
  have ascends : AscendsFrom rank (sorted isLess items) 0 :=
    unwind_ascends compares heap fun left right _ start inside =>
      absurd inside (Nat.not_lt.mpr start)
  rw [List.pairwise_iff_getElem]
  intro left right leftInside rightInside before
  have ordered := ascends left right before (Nat.zero_le _) (by simpa using rightInside)
  rwa [rankAt_of_lt (by simpa using leftInside), rankAt_of_lt (by simpa using rightInside)]
    at ordered

/-! ## Keeping the least items -/

theorem IsHeap.le_of_mem {items : Array α} {root item : α}
    (heap : IsHeap rank items items.size) (found : items[0]? = some root) (member : item ∈ items) :
    rank item ≤ rank root := by
  obtain ⟨index, inside, rfl⟩ := Array.getElem_of_mem member
  have ordered := heap.le_root index inside
  rw [rankAt_of_lt inside, rankAt, found] at ordered
  exact ordered

/-- Of the items seen so far, `items` holds as many as it may and `dropped` holds the others. If
items are compared by rank, `items` is a heap and holds the least of them. -/
structure Keeps (isLess : α → α → Bool) (k : Nat) (seen : List α) (items : Array α)
    (dropped : List α) : Prop where
  parted : (items.toList ++ dropped).Perm seen
  size : items.size = min k seen.length
  heap : ∀ rank, Compares isLess rank seen → IsHeap rank items items.size
  least : ∀ rank, Compares isLess rank seen →
    ∀ item ∈ items, ∀ lost ∈ dropped, rank item ≤ rank lost

namespace Keeps

variable {k : Nat} {seen dropped : List α} {items : Array α}

theorem none (isLess : α → α → Bool) (k : Nat) : Keeps isLess k [] #[] [] where
  parted := .refl _
  size := by simp
  heap _ _ child _ below := absurd below (Nat.not_lt_zero child)
  least _ _ _ member := absurd member (Array.not_mem_empty _)

theorem subset (keeps : Keeps isLess k seen items dropped) : items.toList ⊆ seen :=
  List.Subset.trans (List.subset_append_left _ _) keeps.parted.subset

theorem length_eq (keeps : Keeps isLess k seen items dropped) :
    items.size + dropped.length = seen.length := by
  simpa using keeps.parted.length_eq

theorem insert (keeps : Keeps isLess k seen items dropped) (room : items.size < k)
    (candidate : α) :
    Keeps isLess k (candidate :: seen) (insert isLess items candidate) dropped := by
  have inserted := insert_perm isLess items candidate
  have nothing : dropped = [] := by
    have size := keeps.size
    have count := keeps.length_eq
    exact List.eq_nil_of_length_eq_zero (by omega)
  constructor
  · exact (inserted.append_right dropped).trans (keeps.parted.cons candidate)
  · have full := inserted.length_eq
    have size := keeps.size
    simp only [Array.length_toList, List.length_cons] at *
    omega
  · intro rank compares
    have smaller := compares.of_subset (List.subset_cons_self candidate seen)
    have together : candidate :: items.toList ⊆ candidate :: seen :=
      List.cons_subset_cons candidate keeps.subset
    exact insert_isHeap (compares.of_subset together) (keeps.heap rank smaller)
  · intro rank compares item _ lost member
    rw [nothing] at member
    cases member

theorem replace (keeps : Keeps isLess k seen items dropped) {root : α}
    (found : items[0]? = some root) (full : k ≤ items.size) {candidate : α}
    (less : isLess candidate root = true) :
    Keeps isLess k (candidate :: seen)
      (WorstFirst.insert isLess (removeRoot isLess items) candidate) (root :: dropped) := by
  have removed := removeRoot_perm isLess found
  have inserted := insert_perm isLess (removeRoot isLess items) candidate
  have fewer : (removeRoot isLess items).toList ⊆ items.toList :=
    List.Subset.trans (List.subset_cons_self _ _) removed.subset
  have rootMember : root ∈ items := Array.mem_of_getElem? found
  constructor
  · have exchanged : ((removeRoot isLess items).toList ++ root :: dropped).Perm seen :=
      List.perm_middle.trans ((removed.append_right dropped).trans keeps.parted)
    exact (inserted.append_right _).trans (exchanged.cons candidate)
  · have size := keeps.size
    have before := removed.length_eq
    have after := inserted.length_eq
    simp only [Array.length_toList, List.length_cons] at *
    omega
  · intro rank compares
    have smaller := compares.of_subset (List.subset_cons_self candidate seen)
    have together : candidate :: (removeRoot isLess items).toList ⊆ candidate :: seen :=
      List.cons_subset_cons candidate (List.Subset.trans fewer keeps.subset)
    exact insert_isHeap (compares.of_subset together)
      (removeRoot_isHeap (smaller.of_subset keeps.subset) (keeps.heap rank smaller))
  · intro rank compares item kept lost member
    have smaller := compares.of_subset (List.subset_cons_self candidate seen)
    -- The root is the greatest kept item, and no item dropped before it is less than it.
    have rootSeen := keeps.subset (Array.mem_toList_iff.mpr rootMember)
    have nearer : rank candidate < rank root :=
      (compares _ List.mem_cons_self _ (List.mem_cons_of_mem _ rootSeen)).mp less
    have belowRoot : rank item ≤ rank root := by
      rcases List.mem_cons.mp (inserted.subset (Array.mem_toList_iff.mpr kept)) with rfl | old
      · exact Int.le_of_lt nearer
      · exact (keeps.heap rank smaller).le_of_mem found (Array.mem_toList_iff.mp (fewer old))
    rcases List.mem_cons.mp member with rfl | earlier
    · exact belowRoot
    · exact Int.le_trans belowRoot (keeps.least rank smaller root rootMember lost earlier)

theorem refuse (keeps : Keeps isLess k seen items dropped) {root : α}
    (found : items[0]? = some root) (full : k ≤ items.size) {candidate : α}
    (notLess : ¬isLess candidate root = true) :
    Keeps isLess k (candidate :: seen) items (candidate :: dropped) := by
  have rootMember : root ∈ items := Array.mem_of_getElem? found
  constructor
  · exact List.perm_middle.trans (keeps.parted.cons candidate)
  · have size := keeps.size
    rw [List.length_cons]
    omega
  · intro rank compares
    exact keeps.heap rank (compares.of_subset (List.subset_cons_self candidate seen))
  · intro rank compares item kept lost member
    have smaller := compares.of_subset (List.subset_cons_self candidate seen)
    rcases List.mem_cons.mp member with rfl | earlier
    · have rootSeen := keeps.subset (Array.mem_toList_iff.mpr rootMember)
      have notNearer := mt
        (compares _ List.mem_cons_self _ (List.mem_cons_of_mem _ rootSeen)).mpr notLess
      exact Int.le_trans ((keeps.heap rank smaller).le_of_mem found kept)
        (Int.not_lt.mp notNearer)
    · exact keeps.least rank smaller item kept lost earlier

theorem offer (keeps : Keeps isLess k seen items dropped) (positive : 0 < k) (candidate : α) :
    ∃ lost, Keeps isLess k (candidate :: seen) (offer isLess k items candidate) lost := by
  unfold WorstFirst.offer
  split
  · rename_i room
    exact ⟨dropped, keeps.insert room candidate⟩
  · rename_i noRoom
    split
    · rename_i root found
      split
      · rename_i less
        exact ⟨root :: dropped, keeps.replace found (Nat.not_lt.mp noRoom) less⟩
      · rename_i notLess
        exact ⟨candidate :: dropped, keeps.refuse found (Nat.not_lt.mp noRoom) notLess⟩
    · rename_i empty
      have := Array.getElem?_eq_none_iff.mp empty
      omega

theorem foldl (keeps : Keeps isLess k seen items dropped) (positive : 0 < k)
    (candidates : List α) :
    ∃ lost, Keeps isLess k (candidates.reverse ++ seen)
      (candidates.foldl (WorstFirst.offer isLess k) items) lost := by
  induction candidates generalizing seen items dropped with
  | nil => exact ⟨dropped, keeps⟩
  | cons candidate rest induction =>
      rcases keeps.offer positive candidate with ⟨lost, offered⟩
      rw [List.foldl_cons, List.reverse_cons, List.append_assoc]
      exact induction offered

end Keeps

theorem sorted_foldl_offer {k : Nat} (positive : 0 < k) (candidates : List α) :
    let kept := (sorted isLess (candidates.foldl (offer isLess k) #[])).toList
    ∃ dropped, (kept ++ dropped).Perm candidates ∧ kept.length = min k candidates.length ∧
      ∀ rank, Compares isLess rank candidates →
        kept.Pairwise (fun left right => rank left ≤ rank right) ∧
          ∀ item ∈ kept, ∀ lost ∈ dropped, rank item ≤ rank lost := by
  intro kept
  rcases (Keeps.none isLess k).foldl positive candidates with ⟨dropped, keeps⟩
  rw [List.append_nil] at keeps
  have rearranged : kept.Perm (candidates.foldl (offer isLess k) #[]).toList :=
    (sorted_perm _ _).toList
  refine ⟨dropped, ?_, ?_, ?_⟩
  · exact ((rearranged.append_right dropped).trans keeps.parted).trans
      (List.reverse_perm candidates)
  · rw [rearranged.length_eq, Array.length_toList, keeps.size, List.length_reverse]
  · intro rank compares
    have reversed := compares.of_subset (List.reverse_perm candidates).subset
    constructor
    · exact sorted_ascends (reversed.of_subset keeps.subset) (keeps.heap rank reversed)
    · intro item member lost dropped
      exact keeps.least rank reversed item
        (Array.mem_toList_iff.mp (rearranged.subset member)) lost dropped

end WorstFirst

end RangeRecall
