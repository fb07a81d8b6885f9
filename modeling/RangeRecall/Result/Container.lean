import RangeRecall.Bytes.Word
import RangeRecall.Error
import RangeRecall.Result.Payload

/-!
Result files: a header and the encoded payload whose checksum it carries. The
header is eight magic bytes, then version, payload kind, flags and checksum, each
a four-byte word. The checksum is verified before anything is decoded, and bytes
after the decoded value are ignored.
-/

namespace RangeRecall

structure ResultHeader where
  magic : List UInt8
  version : UInt32
  kind : PayloadKind
  flags : UInt32
  checksum : UInt32
deriving DecidableEq

namespace ResultHeader

def fileMagic : List UInt8 :=
  [0x52, 0x4e, 0x47, 0x42, 0x4e, 0x43, 0x48, 0x00]

def size : Nat := 24

def currentVersion : Nat := 1

def new (kind : PayloadKind) (checksum : UInt32) : ResultHeader :=
  { magic := fileMagic
    version := UInt32.ofNat currentVersion
    kind := kind
    flags := 0
    checksum := checksum }

def encode (header : ResultHeader) : List UInt8 :=
  header.magic ++ LittleEndian.encode 4 header.version.toNat ++
    LittleEndian.encode 4 header.kind.code ++ LittleEndian.encode 4 header.flags.toNat ++
    LittleEndian.encode 4 header.checksum.toNat

def wordAt (bytes : List UInt8) (position : Nat) : Nat :=
  LittleEndian.decode ((bytes.drop position).take 4)

/-- Reads the header at the beginning of the bytes. The version is not looked at. -/
def decode (bytes : List UInt8) : Except FormatError ResultHeader :=
  if bytes.length < size then .error .headerTooSmall
  else if bytes.take 8 ≠ fileMagic then .error .wrongMagic
  else
    match PayloadKind.ofCode? (wordAt bytes 12) with
    | none => .error (.unknownKind (wordAt bytes 12))
    | some kind =>
      .ok {
        magic := bytes.take 8
        version := UInt32.ofNat (wordAt bytes 8)
        kind := kind
        flags := UInt32.ofNat (wordAt bytes 16)
        checksum := UInt32.ofNat (wordAt bytes 20) }

def verify (header : ResultHeader) (expected : PayloadKind) : Except FormatError Unit :=
  if currentVersion < header.version.toNat then
    .error (.unsupportedVersion header.version.toNat currentVersion)
  else if header.kind ≠ expected then
    .error (.wrongKind expected header.kind)
  else .ok ()

end ResultHeader

/-! ## Files -/

namespace ResultFile

def ofPayload (kind : PayloadKind) (payload : List UInt8) : List UInt8 :=
  (ResultHeader.new kind (Checksum.ofBytes payload)).encode ++ payload

def payloadOf (kind : PayloadKind) (content : List UInt8) : Except Error (List UInt8) := do
  if content.length < ResultHeader.size then
    throw (.format .resultTooSmall)
  let header ← (ResultHeader.decode (content.take ResultHeader.size)).mapError .format
  (header.verify kind).mapError .format
  let payload := content.drop ResultHeader.size
  if Checksum.ofBytes payload ≠ header.checksum then
    throw .checksumMismatch
  return payload

def decodePayload (decode : Payload.Decoder α) (payload : List UInt8) : Except Error α :=
  match decode payload with
  | .ok (value, _) => .ok value
  | .error error => .error (.serialization (.payload error))

def ofRun (run : ExecutionRun) : List UInt8 :=
  ofPayload .run (Payload.encodeRun run)

def toRun (content : List UInt8) : Except Error ExecutionRun := do
  decodePayload Payload.decodeRun (← payloadOf .run content)

def ofReport (report : RecallReport) : List UInt8 :=
  ofPayload .report (Payload.encodeReport report)

def toReport (content : List UInt8) : Except Error RecallReport := do
  decodePayload Payload.decodeReport (← payloadOf .report content)

end ResultFile

end RangeRecall
