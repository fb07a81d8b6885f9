import RangeRecall.GroundTruth.Basic
import RangeRecall.Synthetic.Random

/-!
Random batches and datasets. Equal seeds give equal data: component `i` of
everything drawn from one seed is made from word `i` of the seed's stream.
-/

namespace RangeRecall

namespace Random

/-- The number in `[-1, 1)` that a random word stands for. The upper 23 bits are the fraction
of a number in `[1, 2)`, which is then shifted and stretched. -/
def component (word : UInt32) : Binary32 :=
  let unit : Binary32 := { bits := (word >>> 9) ||| 0x3f800000 }
  let one : Binary32 := { bits := 0x3f800000 }
  let two : Binary32 := { bits := 0x40000000 }
  let minusOne : Binary32 := { bits := 0xbf800000 }
  ((unit.subtract one).multiply two).add minusOne

def components (seed : UInt64) (position count : Nat) : List Binary32 :=
  let key := key seed
  (List.range' position count).map fun place => component (word key place)

end Random

namespace VectorBatch

/-- The batch made from the words of a seed from a position on. Room for all components is
reserved before the shape is looked at. -/
def random (seed : UInt64) (position count dimension : Nat) : Attempt VectorBatch := do
  if wordLimit ≤ count * dimension then
    throw (.fault .arithmeticOverflow)
  reserve (count * dimension) 4
  ofComponents count dimension (Random.components seed position (count * dimension))

def synthetic (count dimension : Nat) (seed : UInt64) : Attempt VectorBatch :=
  random seed 0 count dimension

end VectorBatch

structure Dataset where
  base : VectorBatch
  queries : VectorBatch
  groundTruth : GroundTruth

namespace Dataset

/-- A random dataset. The queries continue the stream that the base vectors are made from. -/
def generate (baseCount queryCount dimension : Nat) (threshold : Binary32) (seed : UInt64) :
    Attempt Dataset := do
  let base ← VectorBatch.random seed 0 baseCount dimension
  let queries ← VectorBatch.random seed (baseCount * dimension) queryCount dimension
  let groundTruth ← GroundTruth.exact base queries threshold
  return { base := base, queries := queries, groundTruth := groundTruth }

end Dataset

end RangeRecall
