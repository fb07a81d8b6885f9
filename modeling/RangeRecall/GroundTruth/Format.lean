import RangeRecall.Bytes.Field
import RangeRecall.GroundTruth.Basic

/-!
The byte format of a ground truth: query count and threshold, one offset more
than there are queries, then all neighbor numbers and all distances, every
field four bytes wide. The encoding announces its own end, so encodings can
stand one after another.
-/

namespace RangeRecall

namespace GroundTruth

def fields (truth : GroundTruth) : List (List UInt8) :=
  LittleEndian.encode 4 truth.queryCount :: truth.threshold.toBytes ::
    (truth.offsets.map fun offset => LittleEndian.encode 4 offset.toNat) ++
    (truth.neighborIds.map fun id => LittleEndian.encode 4 id.toNat) ++
    truth.neighborDistances.map Binary32.toBytes

def encode (truth : GroundTruth) : List UInt8 :=
  truth.fields.flatten

def write (truth : GroundTruth) (sink : Sink) : Except Error Unit × Sink :=
  match sink.writeWord "query count" truth.queryCount with
  | (.error error, next) => (.error error, next)
  | (.ok (), next) => next.writeFields (truth.fields.drop 1)

def chunkSize : Nat := 1024

def wordOf (bytes : List UInt8) : UInt32 :=
  UInt32.ofNat (LittleEndian.decode bytes)

/-- Reads `remaining` more values of a field of `total`. A field that ends early is reported
with the number of values in the chunks that were read whole. -/
def readChunks (field : String) (decode : List UInt8 → α) (total remaining : Nat)
    (source : Source) : Except Error (List α × Source) :=
  if remaining = 0 then .ok ([], source)
  else
    let count := min remaining chunkSize
    match source.fill (4 * count) field with
    | .error (.format _) => .error (.format (.truncatedField field (total - remaining) total))
    | .error error => .error error
    | .ok (bytes, next) =>
      match readChunks field decode total (remaining - count) next with
      | .error error => .error error
      | .ok (values, last) => .ok ((LittleEndian.groups 4 bytes).map decode ++ values, last)
termination_by remaining
decreasing_by simp only [chunkSize]; omega

def readField (field : String) (decode : List UInt8 → α) (total : Nat) (source : Source) :
    Except Error (List α × Source) :=
  readChunks field decode total total source

def read (source : Source) : Except Error (GroundTruth × Source) := do
  let (counts, source) ← readField "query count" wordOf 1 source
  let (thresholds, source) ← readField "threshold" Binary32.ofBytes 1 source
  let queries := (counts.headD 0).toNat
  let threshold := thresholds.headD { bits := 0 }
  let (offsets, source) ← readField "offsets" wordOf (queries + 1) source
  (checkOffsets offsets).mapError .format
  let total := announced offsets
  let (ids, source) ← readField "neighbor ids" wordOf total source
  let (distances, source) ← readField "neighbor distances" Binary32.ofBytes total source
  let truth ← (ofParts threshold offsets ids distances).mapError .format
  return (truth, source)

end GroundTruth

end RangeRecall
