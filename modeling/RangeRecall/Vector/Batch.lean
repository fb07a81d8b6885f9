import RangeRecall.Error
import RangeRecall.Failure
import RangeRecall.Numeric.Binary32

/-!
Batches of vectors of one dimension, and distances between vectors. The
components of all vectors stand one after another, so a batch is its shape and
that list. For a distance the squared differences are added in the order of the
components, each operation rounded to single precision.
-/

namespace RangeRecall

inductive DistanceMetric where
  | euclidean
  | euclideanSquared
deriving DecidableEq, Repr

namespace DistanceMetric

def squaredDifference (left right : Binary32) : Binary32 :=
  let difference := left.subtract right
  difference.multiply difference

/-- The sum of the squared differences, begun at negative zero. -/
def squaredDistance (left right : List Binary32) : Binary32 :=
  (List.zipWith squaredDifference left right).foldl Binary32.add Binary32.negativeZero

def measure : DistanceMetric → List Binary32 → List Binary32 → Binary32
  | .euclidean, left, right => (squaredDistance left right).squareRoot
  | .euclideanSquared, left, right => squaredDistance left right

def distance (metric : DistanceMetric) (left right : List Binary32) : Except Fault Binary32 :=
  if left.length = right.length then .ok (metric.measure left right)
  else .error .lengthMismatch

end DistanceMetric

/-! ## Batches -/

/-- `count` vectors of the same `dimension`. Only an empty batch has dimension zero. -/
structure VectorBatch where
  count : Nat
  dimension : Nat
  components : List Binary32
  length_components : components.length = count * dimension
  count_eq_zero : dimension = 0 → count = 0
deriving DecidableEq, Repr

namespace VectorBatch

def ofComponents (count dimension : Nat) (components : List Binary32) :
    Except Error VectorBatch :=
  if zero : dimension = 0 ∧ 0 < count then
    .error (.format (.zeroDimension count))
  else if wordLimit ≤ count * dimension then
    .error (.format (.shapeOverflow count dimension))
  else if size : components.length = count * dimension then
    .ok {
      count := count
      dimension := dimension
      components := components
      length_components := size
      count_eq_zero := by omega }
  else
    .error (.format (.payloadSize components.length count dimension))

def firstRagged? (dimension : Nat) : (row : Nat) → List (List Binary32) → Option (Nat × Nat)
  | _, [] => none
  | row, vector :: rest =>
    if vector.length = dimension then firstRagged? dimension (row + 1) rest
    else some (row, vector.length)

/-- The batch of the given rows, which must all be as long as the first. Room for all of them
is reserved first. -/
def ofRows (rows : List (List Binary32)) : Attempt VectorBatch := do
  let dimension := (rows.head?.map List.length).getD 0
  if wordLimit ≤ rows.length * dimension then
    throw (.fault .arithmeticOverflow)
  reserve (rows.length * dimension) 4
  match firstRagged? dimension 0 rows with
  | some (row, length) =>
    throw (.error (.invalidParameter (.rowDimension row length dimension)))
  | none => ofComponents rows.length dimension rows.flatten

def isEmpty (batch : VectorBatch) : Bool :=
  batch.count == 0

def pieces (length : Nat) : (count : Nat) → List α → List (List α)
  | 0, _ => []
  | count + 1, items => items.take length :: pieces length count (items.drop length)

def rows (batch : VectorBatch) : List (List Binary32) :=
  pieces batch.dimension batch.count batch.components

def vectorAt (batch : VectorBatch) (index : Nat) : Except Fault (List Binary32) :=
  let start := index * batch.dimension
  if start + batch.dimension ≤ batch.components.length then
    .ok ((batch.components.drop start).take batch.dimension)
  else .error .indexOutOfRange

end VectorBatch

end RangeRecall
