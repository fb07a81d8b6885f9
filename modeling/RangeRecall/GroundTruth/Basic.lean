import RangeRecall.Decimal.Text
import RangeRecall.Error
import RangeRecall.Failure
import RangeRecall.Vector.Batch

/-!
The true neighbors of a list of queries, as compressed rows: all rows stand one
after another, and the row of query `i` lies between offsets `i` and `i + 1`. The
exact ground truth is found by measuring every base vector, and a signed shift
leads from its neighbor numbers to the identifiers that a store returns.
-/

namespace RangeRecall

/-- Offsets that begin at zero, never decrease and end at `total`. -/
def RowOffsets (offsets : List UInt32) (total : Nat) : Prop :=
  offsets.head? = some 0 ∧ offsets.Pairwise (· ≤ ·) ∧
    offsets.getLast?.map UInt32.toNat = some total

instance (offsets : List UInt32) (total : Nat) : Decidable (RowOffsets offsets total) :=
  inferInstanceAs (Decidable (_ ∧ _ ∧ _))

structure GroundTruth where
  threshold : Binary32
  offsets : List UInt32
  neighborIds : List UInt32
  neighborDistances : List Binary32
  rowOffsets : RowOffsets offsets neighborIds.length
  length_distances : neighborDistances.length = neighborIds.length
deriving DecidableEq

namespace GroundTruth

def firstDecrease? : (position : Nat) → List UInt32 → Option (Nat × UInt32 × UInt32)
  | position, first :: second :: rest =>
    if second < first then some (position, first, second)
    else firstDecrease? (position + 1) (second :: rest)
  | _, _ => none

def checkOffsets (offsets : List UInt32) : Except FormatError Unit :=
  match offsets with
  | [] => .error .noOffsets
  | first :: _ =>
    if first ≠ 0 then .error (.firstOffset first.toNat)
    else match firstDecrease? 0 offsets with
      | some (position, first, second) =>
        .error (.decreasingOffsets position first.toNat second.toNat)
      | none => .ok ()

theorem pairwise_of_firstDecrease?_eq_none {position : Nat} {offsets : List UInt32}
    (none : firstDecrease? position offsets = none) : offsets.Pairwise (· ≤ ·) := by
  induction offsets generalizing position with
  | nil => exact .nil
  | cons first rest induction =>
    cases rest with
    | nil => exact List.pairwise_singleton _ _
    | cons second rest =>
      simp only [firstDecrease?] at none
      split at none
      · cases none
      · rename_i notLess
        have increasing := induction none
        refine List.pairwise_cons.mpr ⟨?_, increasing⟩
        have step : first ≤ second := UInt32.not_lt.mp notLess
        intro other member
        rcases List.mem_cons.mp member with rfl | member
        · exact step
        · exact UInt32.le_trans step (List.rel_of_pairwise_cons increasing member)

theorem head?_and_pairwise_of_checkOffsets {offsets : List UInt32}
    (accepted : checkOffsets offsets = .ok ()) :
    offsets.head? = some 0 ∧ offsets.Pairwise (· ≤ ·) := by
  cases offsets with
  | nil => cases accepted
  | cons first rest =>
    simp only [checkOffsets] at accepted
    split at accepted
    · cases accepted
    · rename_i isZero
      split at accepted
      · cases accepted
      · rename_i none
        have : first = 0 := Decidable.not_not.mp isZero
        exact ⟨by simp [this], pairwise_of_firstDecrease?_eq_none none⟩

def announced (offsets : List UInt32) : Nat :=
  (offsets.getLast?.map UInt32.toNat).getD 0

theorem getLast?_eq_announced {offsets : List UInt32} (head : offsets.head? = some 0) :
    offsets.getLast?.map UInt32.toNat = some (announced offsets) := by
  cases offsets with
  | nil => cases head
  | cons first rest => simp [announced, List.getLast?_cons]

def ofParts (threshold : Binary32) (offsets neighborIds : List UInt32)
    (neighborDistances : List Binary32) : Except FormatError GroundTruth :=
  match check : checkOffsets offsets with
  | .error cause => .error cause
  | .ok () =>
    let total := announced offsets
    if ids : neighborIds.length = total then
      if distances : neighborDistances.length = total then
        .ok {
          threshold := threshold
          offsets := offsets
          neighborIds := neighborIds
          neighborDistances := neighborDistances
          rowOffsets := by
            have shape := head?_and_pairwise_of_checkOffsets check
            refine ⟨shape.1, shape.2, ?_⟩
            rw [ids]
            exact getLast?_eq_announced shape.1
          length_distances := distances.trans ids.symm }
      else .error (.neighborDistanceCount total neighborDistances.length)
    else .error (.neighborIdCount total neighborIds.length)

/-- The end of each row when rows of these lengths stand one after another. -/
def rowEnds : (start : Nat) → List (List α) → List Nat
  | _, [] => []
  | start, row :: rest => (start + row.length) :: rowEnds (start + row.length) rest

/-- The ground truth whose row of query `i` is list `i`. Offsets are four-byte words, so the
number of neighbors is limited. -/
def ofRows (threshold : Binary32) (rows : List (List (UInt32 × Binary32))) :
    Except Error GroundTruth :=
  let ends := rowEnds 0 rows
  if ends.any (fieldLimit ≤ ·) then
    .error (.invalidParameter .tooManyNeighbors)
  else
    (ofParts threshold (0 :: ends.map UInt32.ofNat) (rows.flatten.map Prod.fst)
      (rows.flatten.map Prod.snd)).mapError .format

def queryCount (truth : GroundTruth) : Nat :=
  truth.offsets.length - 1

def rowRange (truth : GroundTruth) (query : Nat) : Except Fault (Nat × Nat) :=
  match truth.offsets[query]?, truth.offsets[query + 1]? with
  | some first, some second => .ok (first.toNat, second.toNat)
  | _, _ => .error .indexOutOfRange

def between (items : List α) (range : Nat × Nat) : Except Fault (List α) :=
  if range.1 ≤ range.2 ∧ range.2 ≤ items.length then
    .ok ((items.drop range.1).take (range.2 - range.1))
  else .error .indexOutOfRange

def neighbors (truth : GroundTruth) (query : Nat) : Except Fault (List UInt32) := do
  between truth.neighborIds (← truth.rowRange query)

def distances (truth : GroundTruth) (query : Nat) : Except Fault (List Binary32) := do
  between truth.neighborDistances (← truth.rowRange query)

/-! ## The exact ground truth -/

/-- The rows strictly within the threshold of a query, with their distances, from the row with
the given number on. Row numbers are kept as four-byte words. -/
def rowsWithin (threshold : Binary32) (query : List Binary32) :
    (number : Nat) → List (List Binary32) → Except Fault (List (UInt32 × Binary32))
  | _, [] => .ok []
  | number, vector :: rest => do
    let distance ← DistanceMetric.euclidean.distance query vector
    let others ← rowsWithin threshold query (number + 1) rest
    return if distance.isLess threshold then (UInt32.ofNat number, distance) :: others
      else others

def exact (base queries : VectorBatch) (threshold : Binary32) : Attempt GroundTruth := do
  if !base.isEmpty && !queries.isEmpty && base.dimension ≠ queries.dimension then
    throw (.error (.invalidParameter (.dimensionMismatch base.dimension queries.dimension)))
  let rows ← queries.rows.mapM fun query => rowsWithin threshold query 0 base.rows
  ofRows threshold rows

end GroundTruth

/-! ## Identifiers -/

structure IdOffset where
  shift : Int64
deriving DecidableEq

namespace IdOffset

def none : IdOffset := { shift := 0 }

/-- Store identifiers begin one above the numbering of the ground truth. -/
def default : IdOffset := { shift := 1 }

/-- The identifier that a store gives to a neighbor, if it is not negative. The shifted number
is computed in signed 64-bit words. -/
def storeId? (offset : IdOffset) (neighbor : UInt32) : Except Fault (Option UInt64) :=
  let shifted := (neighbor.toNat : Int) + offset.shift.toInt
  if shifted < signedLimit then
    .ok (if 0 ≤ shifted then some (UInt64.ofNat shifted.toNat) else .none)
  else .error .arithmeticOverflow

def text (offset : IdOffset) : String :=
  let shift := offset.shift.toInt
  if shift < 0 then Decimal.integerText shift else "+" ++ Decimal.integerText shift

end IdOffset

end RangeRecall
