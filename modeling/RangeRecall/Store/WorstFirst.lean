/-!
A heap with its greatest item at the root, in an array: the children of
position `i` are at `2 * i + 1` and `2 * i + 2`. Only `isLess` decides the
order, so items of which neither is less count as equal, and their final order
is the one that these movements leave them in.
-/

namespace RangeRecall

namespace WorstFirst

variable {α : Type} (isLess : α → α → Bool)

def siftUp (items : Array α) (position : Nat) (inside : position < items.size) : Array α :=
  if top : position = 0 then items
  else
    let parent := (position - 1) / 2
    if isLess items[parent] items[position] then
      siftUp (items.swap parent position) parent (by simp only [Array.size_swap]; omega)
    else items
termination_by position
decreasing_by omega

/-- The greater of the children of a position that lie before `limit`, the right one if they
are equal. The left child must lie before it. -/
def greaterChild (items : Array α) (position limit : Nat) (fits : limit ≤ items.size)
    (_ : 2 * position + 1 < limit) : Nat :=
  if right : 2 * position + 2 < limit then
    if isLess items[2 * position + 2] items[2 * position + 1] then 2 * position + 1
    else 2 * position + 2
  else 2 * position + 1

theorem greaterChild_bounds {items : Array α} {position limit : Nat}
    (fits : limit ≤ items.size) (left : 2 * position + 1 < limit) :
    position < greaterChild isLess items position limit fits left ∧
      greaterChild isLess items position limit fits left < limit := by
  unfold greaterChild
  split
  · split <;> omega
  · omega

def siftDown (items : Array α) (position limit : Nat) (fits : limit ≤ items.size) : Array α :=
  if left : 2 * position + 1 < limit then
    have bounds := greaterChild_bounds isLess fits left
    let child := greaterChild isLess items position limit fits left
    if isLess items[position] items[child] then
      siftDown (items.swap position child) child limit (by simpa only [Array.size_swap] using fits)
    else items
  else items
termination_by limit - position
decreasing_by omega

theorem size_siftDown (items : Array α) (position limit : Nat) (fits : limit ≤ items.size) :
    (siftDown isLess items position limit fits).size = items.size := by
  fun_induction siftDown isLess items position limit fits with
  | case1 items position fits left bounds child less induction => simpa using induction
  | case2 => rfl
  | case3 => rfl

/-- Moves the item at a position to a leaf, always past the greater child, and from there up
again. -/
def siftToBottom (items : Array α) (position : Nat) (inside : position < items.size) :
    Array α :=
  if left : 2 * position + 1 < items.size then
    have bounds := greaterChild_bounds isLess (Nat.le_refl _) left
    let child := greaterChild isLess items position items.size (Nat.le_refl _) left
    siftToBottom (items.swap position child) child (by simp only [Array.size_swap]; omega)
  else siftUp isLess items position inside
termination_by items.size - position
decreasing_by simp only [Array.size_swap]; omega

def insert (items : Array α) (item : α) : Array α :=
  siftUp isLess (items.push item) items.size (by simp only [Array.size_push]; omega)

def removeRoot (items : Array α) : Array α :=
  if two : 1 < items.size then
    let last := items[items.size - 1]
    siftToBottom isLess (items.pop.set 0 last (by simp only [Array.size_pop]; omega)) 0
      (by simp only [Array.size_set, Array.size_pop]; omega)
  else items.pop

/-- Keeps the `k` least items: a candidate replaces the root of a full heap only if it is
less. -/
def offer (k : Nat) (items : Array α) (candidate : α) : Array α :=
  if items.size < k then insert isLess items candidate
  else match items[0]? with
    | some root =>
      if isLess candidate root then insert isLess (removeRoot isLess items) candidate
      else items
    | none => items

/-- Exchanges the root with the last of the first `count` items and restores the heap before
it, until only the root is left. -/
def unwind (items : Array α) : (count : Nat) → count ≤ items.size → Array α
  | 0, _ => items
  | 1, _ => items
  | count + 2, fits =>
    let exchanged := items.swap 0 (count + 1) (by omega) (by omega)
    have fitsExchanged : count + 1 ≤ exchanged.size := by
      simp only [exchanged, Array.size_swap]
      omega
    unwind (siftDown isLess exchanged 0 (count + 1) fitsExchanged) (count + 1)
      (by rw [size_siftDown]; exact fitsExchanged)

def sorted (items : Array α) : Array α :=
  unwind isLess items items.size (Nat.le_refl _)

end WorstFirst

end RangeRecall
