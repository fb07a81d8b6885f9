import RangeRecall.Bytes.Device
import RangeRecall.Failure
import RangeRecall.Json.Complaint
import RangeRecall.Query.Basic

/-!
The errors of a benchmark run, by cause. Each cause has exactly one wording,
given by the `message` functions. Some name the kind of payload that a result
container holds, or what a vector store reports about one call.
-/

namespace RangeRecall

inductive PayloadKind where
  | run
  | report
deriving DecidableEq, Repr

namespace PayloadKind

def code : PayloadKind → Nat
  | .run => 1
  | .report => 2

def ofCode? : Nat → Option PayloadKind
  | 1 => some .run
  | 2 => some .report
  | _ => none

def name : PayloadKind → String
  | .run => "ExecutionRun"
  | .report => "RecallReport"

end PayloadKind

inductive StoreErrorKind where
  | connection
  | rejected
  | other
deriving DecidableEq, Repr

namespace StoreErrorKind

def name : StoreErrorKind → String
  | .connection => "connection"
  | .rejected => "rejected"
  | .other => "other"

def ofName? (name : String) : Option StoreErrorKind :=
  [connection, rejected, other].find? fun kind => kind.name = name

end StoreErrorKind

structure StoreError where
  kind : StoreErrorKind
  detail : String
deriving DecidableEq, Repr

def StoreError.message (error : StoreError) : String :=
  error.kind.name ++ " error: " ++ error.detail

open Decimal (naturalText)

/-! ## Causes -/

inductive FormatError where
  | zeroDimension (count : Nat)
  | shapeOverflow (count dimension : Nat)
  | payloadSize (found count dimension : Nat)
  | inputEnds (field : String)
  | emptyBatch (count dimension : Nat)
  | partialNumber (bytes : Nat)
  | zeroDimensionHeader (count numbers : Nat)
  | raggedPayload (numbers dimension : Nat)
  | countMismatch (declared found : Nat)
  | truncatedField (field : String) (present expected : Nat)
  | noOffsets
  | firstOffset (offset : Nat)
  | decreasingOffsets (query first second : Nat)
  | neighborIdCount (expected found : Nat)
  | neighborDistanceCount (expected found : Nat)
  | resultTooSmall
  | headerTooSmall
  | wrongMagic
  | unknownKind (code : Nat)
  | unsupportedVersion (found supported : Nat)
  | wrongKind (expected found : PayloadKind)
  | other (text : String)
deriving DecidableEq, Repr

def FormatError.message : FormatError → String
  | .zeroDimension count => "dimension is zero for " ++ naturalText count ++ " vectors"
  | .shapeOverflow count dimension =>
    "count " ++ naturalText count ++ " * dimension " ++ naturalText dimension ++ " overflows"
  | .payloadSize found count dimension =>
    "payload holds " ++ naturalText found ++ " floats, expected " ++
      naturalText (count * dimension) ++ " (" ++ naturalText count ++ " x " ++
      naturalText dimension ++ ")"
  | .inputEnds field => "input ends while reading " ++ field
  | .emptyBatch count dimension =>
    "empty vector batch: count=" ++ naturalText count ++ ", dimension=" ++ naturalText dimension
  | .partialNumber bytes =>
    "payload of " ++ naturalText bytes ++ " bytes is not a whole number of f32 values"
  | .zeroDimensionHeader count numbers =>
    "dimension is zero but header declares " ++ naturalText count ++
      " vectors and payload holds " ++ naturalText numbers ++ " floats"
  | .raggedPayload numbers dimension =>
    "payload of " ++ naturalText numbers ++ " floats is not a multiple of dimension " ++
      naturalText dimension
  | .countMismatch declared found =>
    "header declares " ++ naturalText declared ++ " vectors but payload holds " ++
      naturalText found
  | .truncatedField field present expected =>
    "input ends while reading " ++ field ++ ": " ++ naturalText present ++ " of " ++
      naturalText expected ++ " values present"
  | .noOffsets => "offsets array is empty"
  | .firstOffset offset => "offsets[0] must be 0, got " ++ naturalText offset
  | .decreasingOffsets query first second =>
    "offsets decrease at query " ++ naturalText query ++ ": " ++ naturalText first ++ " > " ++
      naturalText second
  | .neighborIdCount expected found =>
    "expected " ++ naturalText expected ++ " neighbor ids, got " ++ naturalText found
  | .neighborDistanceCount expected found =>
    "expected " ++ naturalText expected ++ " neighbor distances, got " ++ naturalText found
  | .resultTooSmall => "file too small for header"
  | .headerTooSmall => "result header too small"
  | .wrongMagic => "invalid magic bytes"
  | .unknownKind code => "unknown payload kind " ++ naturalText code
  | .unsupportedVersion found supported =>
    "unsupported version " ++ naturalText found ++ " (max supported: " ++
      naturalText supported ++ ")"
  | .wrongKind expected found =>
    "payload kind mismatch: expected " ++ expected.name ++ ", got " ++ found.name
  | .other text => text

inductive ParameterError where
  | rowDimension (row found expected : Nat)
  | exceedsField (field : String) (value : Nat)
  | tooManyNeighbors
  | dimensionMismatch (base query : Nat)
  | mixedStrategies (query : Nat) (found expected : ScanStrategy)
  | zeroK
  | other (text : String)
deriving DecidableEq, Repr

def ParameterError.message : ParameterError → String
  | .rowDimension row found expected =>
    "row " ++ naturalText row ++ " has dimension " ++ naturalText found ++ ", expected " ++
      naturalText expected
  | .exceedsField field value => field ++ " " ++ naturalText value ++ " exceeds u32"
  | .tooManyNeighbors => "more than u32::MAX neighbors in total"
  | .dimensionMismatch base query =>
    "base dimension " ++ naturalText base ++ " != query dimension " ++ naturalText query
  | .mixedStrategies query found expected =>
    "query " ++ naturalText query ++ " uses " ++ found.name ++ " in a " ++ expected.name ++
      " run"
  | .zeroK => "k must be positive"
  | .other text => text

inductive ConfigError where
  | noQueryPath
  | noGroundTruthPath
  | noStrategies
  | repeatedStrategy (strategy : ScanStrategy)
  | unnamedSetting
  | emptyTargetPart (name : String)
  | unreadable (path : String) (complaint : Json.Complaint)
  | other (text : String)
deriving DecidableEq, Repr

def ConfigError.message : ConfigError → String
  | .noQueryPath => "query_path is empty"
  | .noGroundTruthPath => "ground_truth_path is empty"
  | .noStrategies => "no strategies selected"
  | .repeatedStrategy strategy => "strategy " ++ strategy.name ++ " listed twice"
  | .unnamedSetting => "session setting with empty name"
  | .emptyTargetPart name => name ++ " is empty"
  | .unreadable path complaint => path ++ ": " ++ complaint.message
  | .other text => text

inductive PayloadError where
  | endOfInput
  | variantIndex (index count : Nat)
  | optionTag (tag : Nat)
  | durationOverflow
deriving DecidableEq, Repr

def PayloadError.message : PayloadError → String
  | .endOfInput => "io error: unexpected end of file"
  | .variantIndex index count =>
    "invalid value: integer \x60" ++ naturalText index ++
      "\x60, expected variant index 0 <= i < " ++ naturalText count
  | .optionTag tag => "tag for enum is not valid, found " ++ naturalText tag
  | .durationOverflow => "overflow deserializing Duration"

inductive SerializationError where
  | json (complaint : Json.Complaint)
  | payload (error : PayloadError)
  | other (text : String)
deriving DecidableEq, Repr

def SerializationError.message : SerializationError → String
  | .json complaint => complaint.message
  | .payload error => error.message
  | .other text => text

inductive Error where
  | format (cause : FormatError)
  | storeExecution (query : Query) (source : StoreError)
  | alignment (records queries : Nat)
  | recordOutOfOrder (position index : Nat)
  | cancelled (completed : Nat)
  | storeConnection (source : StoreError)
  | invalidParameter (cause : ParameterError)
  | invalidConfig (cause : ConfigError)
  | device (cause : DeviceError)
  | serialization (cause : SerializationError)
  | checksumMismatch
deriving DecidableEq, Repr

namespace Error

def message : Error → String
  | .format cause => "format error: " ++ cause.message
  | .storeExecution query source =>
    "store execution failed at query " ++ naturalText query.index ++ " (" ++
      query.strategy.name ++ "): " ++ source.message
  | .alignment records queries =>
    "alignment error: " ++ naturalText records ++ " execution records vs " ++
      naturalText queries ++ " ground-truth queries"
  | .recordOutOfOrder position index =>
    "record at position " ++ naturalText position ++ " carries query index " ++
      naturalText index
  | .cancelled completed => "run cancelled after " ++ naturalText completed ++ " queries"
  | .storeConnection source => "store connection error: " ++ source.message
  | .invalidParameter cause => "invalid parameter: " ++ cause.message
  | .invalidConfig cause => "invalid configuration: " ++ cause.message
  | .device cause => "I/O error: " ++ cause.message
  | .serialization cause => "serialization error: " ++ cause.message
  | .checksumMismatch => "checksum mismatch: result file may be corrupted"

def queryIndex? : Error → Option Nat
  | .storeExecution query _ => some query.index
  | .recordOutOfOrder position _ => some position
  | _ => none

end Error

abbrev Attempt (α : Type) := Except (Failure Error) α

end RangeRecall
