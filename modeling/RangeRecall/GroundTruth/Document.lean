import RangeRecall.GroundTruth.Basic
import RangeRecall.Json.Typed

/-!
The JSON forms of identifier offsets and of ground truths. A ground truth that
is read is checked like any other.
-/

namespace RangeRecall

open Json

instance : Document IdOffset where
  toValue offset := .integer offset.shift.toInt
  reader := do return { shift := ← Reader.integer "i64" }

namespace GroundTruth

structure Draft where
  threshold : Option Binary32 := none
  offsets : Option (List UInt32) := none
  neighborIds : Option (List UInt32) := none
  neighborDistances : Option (List Binary32) := none

structure Parts where
  threshold : Binary32
  offsets : List UInt32
  neighborIds : List UInt32
  neighborDistances : List Binary32

def wordReader : Reader UInt32 := do
  return UInt32.ofNat (← Reader.natural "u32" fieldLimit)

def form : RecordForm Draft Parts where
  expected := "struct GroundTruthParts"
  expectedLength := "struct GroundTruthParts with 4 elements"
  fields := [
    .ofReader "threshold" Reader.single Draft.threshold
      fun draft value => { draft with threshold := some value },
    .ofReader "offsets" (Reader.list wordReader) Draft.offsets
      fun draft value => { draft with offsets := some value },
    .ofReader "neighbor_ids" (Reader.list wordReader) Draft.neighborIds
      fun draft value => { draft with neighborIds := some value },
    .ofReader "neighbor_distances" (Reader.list Reader.single) Draft.neighborDistances
      fun draft value => { draft with neighborDistances := some value }]
  blank := {}
  complete draft := do
    let threshold ← required "threshold" draft.threshold
    let offsets ← required "offsets" draft.offsets
    let neighborIds ← required "neighbor_ids" draft.neighborIds
    let neighborDistances ← required "neighbor_distances" draft.neighborDistances
    return { threshold, offsets, neighborIds, neighborDistances }

def reader : Reader GroundTruth := do
  let parts ← Reader.record form
  match ofParts parts.threshold parts.offsets parts.neighborIds parts.neighborDistances with
  | .ok truth => return truth
  | .error cause => Reader.fail (.invalidContent (Error.format cause).message)

instance : Document GroundTruth where
  toValue truth := .object [
    ("threshold", .single truth.threshold),
    ("offsets", .list (truth.offsets.map fun offset => .integer offset.toNat)),
    ("neighbor_ids", .list (truth.neighborIds.map fun id => .integer id.toNat)),
    ("neighbor_distances", .list (truth.neighborDistances.map .single))]
  reader := reader

end GroundTruth

end RangeRecall
