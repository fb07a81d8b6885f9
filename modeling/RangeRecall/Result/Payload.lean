import RangeRecall.Bytes.Word
import RangeRecall.Error
import RangeRecall.Grade.Recall

/-!
The byte encoding of result values: every number in a fixed width, lists with
their length in front, alternatives by their position. A decoder takes what it
needs from the front of the bytes and leaves the rest.
-/

namespace RangeRecall

namespace Payload

abbrev Decoder (α : Type) := List UInt8 → Except PayloadError (α × List UInt8)

/-! ## Numbers -/

def decodeNumber (width : Nat) : Decoder Nat := fun bytes =>
  if bytes.length < width then .error .endOfInput
  else .ok (LittleEndian.decode (bytes.take width), bytes.drop width)

def encodeDouble (number : Binary64) : List UInt8 :=
  LittleEndian.encode 8 number.bits.toNat

def decodeDouble : Decoder Binary64 := fun bytes => do
  let (bits, rest) ← decodeNumber 8 bytes
  return ({ bits := UInt64.ofNat bits }, rest)

def encodeId (id : UInt64) : List UInt8 :=
  LittleEndian.encode 8 id.toNat

def decodeId : Decoder UInt64 := fun bytes => do
  let (id, rest) ← decodeNumber 8 bytes
  return (UInt64.ofNat id, rest)

/-! ## Lists and optional values -/

def encodeList (encodeItem : α → List UInt8) (items : List α) : List UInt8 :=
  LittleEndian.encode 8 items.length ++ items.flatMap encodeItem

def decodeItems (decodeItem : Decoder α) : (count : Nat) → Decoder (List α)
  | 0, bytes => .ok ([], bytes)
  | count + 1, bytes => do
    let (item, rest) ← decodeItem bytes
    let (items, last) ← decodeItems decodeItem count rest
    return (item :: items, last)

def decodeList (decodeItem : Decoder α) : Decoder (List α) := fun bytes => do
  let (count, rest) ← decodeNumber 8 bytes
  decodeItems decodeItem count rest

def encodeOption (encodeItem : α → List UInt8) : Option α → List UInt8
  | none => [0]
  | some item => 1 :: encodeItem item

def decodeOption (decodeItem : Decoder α) : Decoder (Option α) := fun bytes => do
  let (tag, rest) ← decodeNumber 1 bytes
  match tag with
  | 0 => return (none, rest)
  | 1 =>
    let (item, last) ← decodeItem rest
    return (some item, last)
  | tag => throw (.optionTag tag)

/-! ## Strategies and durations -/

def encodeStrategy : ScanStrategy → List UInt8
  | .indexScan => LittleEndian.encode 4 0
  | .sequentialScan => LittleEndian.encode 4 1

def decodeStrategy : Decoder ScanStrategy := fun bytes => do
  let (index, rest) ← decodeNumber 4 bytes
  match index with
  | 0 => return (.indexScan, rest)
  | 1 => return (.sequentialScan, rest)
  | index => throw (.variantIndex index 2)

def encodeDuration (duration : Duration) : List UInt8 :=
  LittleEndian.encode 8 duration.seconds ++ LittleEndian.encode 4 duration.nanos

/-- Takes a duration, in which nanoseconds may carry over to seconds. -/
def decodeDuration : Decoder Duration := fun bytes => do
  let (seconds, afterSeconds) ← decodeNumber 8 bytes
  let (nanos, rest) ← decodeNumber 4 afterSeconds
  match Duration.ofParts? seconds nanos with
  | some duration => return (duration, rest)
  | none => throw .durationOverflow

/-! ## Runs -/

def encodeRecord (record : ExecutionRecord) : List UInt8 :=
  LittleEndian.encode 8 record.index ++ encodeStrategy record.strategy ++
    encodeDuration record.latency ++ encodeList encodeId record.resultIds

def decodeRecord : Decoder ExecutionRecord := fun bytes => do
  let (index, bytes) ← decodeNumber 8 bytes
  let (strategy, bytes) ← decodeStrategy bytes
  let (latency, bytes) ← decodeDuration bytes
  let (resultIds, bytes) ← decodeList decodeId bytes
  return ({ index, strategy, latency, resultIds }, bytes)

def encodeRun (run : ExecutionRun) : List UInt8 :=
  encodeStrategy run.strategy ++ encodeList encodeRecord run.records ++
    encodeDuration run.wallClock

def decodeRun : Decoder ExecutionRun := fun bytes => do
  let (strategy, bytes) ← decodeStrategy bytes
  let (records, bytes) ← decodeList decodeRecord bytes
  let (wallClock, bytes) ← decodeDuration bytes
  return ({ strategy, records, wallClock }, bytes)

/-! ## Reports -/

def encodeStats (stats : LatencyStats) : List UInt8 :=
  LittleEndian.encode 8 stats.count ++ encodeDouble stats.mean ++ encodeDouble stats.p50 ++
    encodeDouble stats.p95 ++ encodeDouble stats.p99 ++ encodeDouble stats.least ++
    encodeDouble stats.greatest

def decodeStats : Decoder LatencyStats := fun bytes => do
  let (count, bytes) ← decodeNumber 8 bytes
  let (mean, bytes) ← decodeDouble bytes
  let (p50, bytes) ← decodeDouble bytes
  let (p95, bytes) ← decodeDouble bytes
  let (p99, bytes) ← decodeDouble bytes
  let (least, bytes) ← decodeDouble bytes
  let (greatest, bytes) ← decodeDouble bytes
  return ({ count, mean, p50, p95, p99, least, greatest }, bytes)

def encodeReport (report : RecallReport) : List UInt8 :=
  encodeStrategy report.strategy ++ LittleEndian.encode 8 report.queryCount ++
    encodeDouble report.aggregateRecall ++ encodeDouble report.queriesPerSecond ++
    encodeDuration report.wallClock ++ encodeStats report.latency ++
    encodeOption (encodeList encodeDouble) report.perQueryRecall

def decodeReport : Decoder RecallReport := fun bytes => do
  let (strategy, bytes) ← decodeStrategy bytes
  let (queryCount, bytes) ← decodeNumber 8 bytes
  let (aggregateRecall, bytes) ← decodeDouble bytes
  let (queriesPerSecond, bytes) ← decodeDouble bytes
  let (wallClock, bytes) ← decodeDuration bytes
  let (latency, bytes) ← decodeStats bytes
  let (perQueryRecall, bytes) ← decodeOption (decodeList decodeDouble) bytes
  return (
    { strategy, queryCount, aggregateRecall, queriesPerSecond, wallClock, latency
      perQueryRecall },
    bytes)

end Payload

end RangeRecall
