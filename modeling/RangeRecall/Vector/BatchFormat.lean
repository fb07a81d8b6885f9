import RangeRecall.Bytes.Field
import RangeRecall.Vector.Batch

/-!
The byte format of vector batches: count and dimension as four-byte words, then
the components row by row. The whole rest of the input belongs to the batch.
-/

namespace RangeRecall

namespace VectorBatch

def headerSize : Nat := 8

def fields (batch : VectorBatch) : List (List UInt8) :=
  LittleEndian.encode 4 batch.count :: LittleEndian.encode 4 batch.dimension ::
    batch.components.map Binary32.toBytes

def encode (batch : VectorBatch) : List UInt8 :=
  batch.fields.flatten

/-- Writes the batch field by field. The shape is checked word by word on the way. -/
def write (batch : VectorBatch) (sink : Sink) : Except Error Unit × Sink :=
  match sink.writeWord "count" batch.count with
  | (.error error, next) => (.error error, next)
  | (.ok (), next) =>
    match next.writeWord "dimension" batch.dimension with
    | (.error error, last) => (.error error, last)
    | (.ok (), last) => last.writeFields (batch.components.map Binary32.toBytes)

def ofPayload (count dimension : Nat) (payload : List UInt8) : Except Error VectorBatch :=
  let numbers := payload.length / 4
  if payload.length % 4 ≠ 0 then
    .error (.format (.partialNumber payload.length))
  else if dimension = 0 then
    if count ≠ 0 ∨ numbers ≠ 0 then
      .error (.format (.zeroDimensionHeader count numbers))
    else ofComponents 0 0 []
  else if numbers % dimension ≠ 0 then
    .error (.format (.raggedPayload numbers dimension))
  else if numbers / dimension ≠ count then
    .error (.format (.countMismatch count (numbers / dimension)))
  else
    ofComponents count dimension ((LittleEndian.groups 4 payload).map Binary32.ofBytes)

/-- Reads a batch up to the end of the input. On request a batch without components is
refused as soon as its header is read. -/
def read (source : Source) (requireNonEmpty : Bool) : Except Error (VectorBatch × Source) :=
  match source.fill headerSize "vector batch header" with
  | .error error => .error error
  | .ok (header, afterHeader) =>
    let count := LittleEndian.decode (header.take 4)
    let dimension := LittleEndian.decode (header.drop 4)
    if requireNonEmpty ∧ (count = 0 ∨ dimension = 0) then
      .error (.format (.emptyBatch count dimension))
    else
      match afterHeader.readToEnd with
      | .error error => .error (.device error)
      | .ok (payload, remaining) =>
        match ofPayload count dimension payload with
        | .error error => .error error
        | .ok batch => .ok (batch, remaining)

end VectorBatch

end RangeRecall
