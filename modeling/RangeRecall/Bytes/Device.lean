/-!
Byte devices. A reading device hands out its bytes in pieces of its own choice
and may fail from some position on. A writing device accepts whole fields up to
a number of bytes and refuses the field that would exceed it.
-/

namespace RangeRecall

/-- The kinds of errors of files and devices. An interrupted operation is tried again, so an
interruption is no error. Kinds that make no difference here have names only. -/
inductive ErrorKind where
  | notFound
  | alreadyExists
  | notADirectory
  | isADirectory
  | invalidFilename
  | invalidInput
  | unexpectedEof
  | other (name : String)
deriving DecidableEq, Repr

inductive DeviceError where
  | notFound
  | alreadyExists
  | notADirectory
  | isADirectory
  | nameTooLong
  | zeroByteInName
  | endOfInput
  | refused (kind : ErrorKind) (text : String)
deriving DecidableEq, Repr

namespace DeviceError

def kind : DeviceError → ErrorKind
  | .notFound => .notFound
  | .alreadyExists => .alreadyExists
  | .notADirectory => .notADirectory
  | .isADirectory => .isADirectory
  | .nameTooLong => .invalidFilename
  | .zeroByteInName => .invalidInput
  | .endOfInput => .unexpectedEof
  | .refused kind _ => kind

def message : DeviceError → String
  | .notFound => "No such file or directory (os error 2)"
  | .alreadyExists => "File exists (os error 17)"
  | .notADirectory => "Not a directory (os error 20)"
  | .isADirectory => "Is a directory (os error 21)"
  | .nameTooLong => "File name too long (os error 36)"
  | .zeroByteInName => "file name contained an unexpected NUL byte"
  | .endOfInput => "failed to fill whole buffer"
  | .refused _ text => text

def lostDevice : DeviceError :=
  .refused (.other "Other") "device lost"

end DeviceError

/-- A reading device: the bytes ahead, how many have been read, the most that one read
delivers, from which position on reads fail, and with which error. No limit means none. -/
structure Source where
  ahead : List UInt8
  position : Nat := 0
  piece : Option Nat := none
  failsAt : Option Nat := none
  failure : DeviceError := .lostDevice
deriving DecidableEq, Repr

namespace Source

def ofBytes (bytes : List UInt8) : Source :=
  { ahead := bytes }

/-- How many bytes one read of up to `wanted` bytes delivers, none of them at the end of the
input. A read never crosses the position from which the device fails. -/
def delivery (source : Source) (wanted : Nat) : Nat :=
  let limited := match source.piece with
    | some piece => min wanted piece
    | none => wanted
  let safe := match source.failsAt with
    | some limit => min limited (limit - source.position)
    | none => limited
  min safe source.ahead.length

def fails (source : Source) : Bool :=
  match source.failsAt with
  | some limit => limit ≤ source.position
  | none => false

def advance (source : Source) (count : Nat) : Source :=
  { source with ahead := source.ahead.drop count, position := source.position + count }

theorem delivery_le (source : Source) (wanted : Nat) : source.delivery wanted ≤ wanted := by
  unfold delivery
  cases source.piece <;> cases source.failsAt <;> simp only [] <;> omega

def readExactly (source : Source) (wanted : Nat) : Except DeviceError (List UInt8 × Source) :=
  if wanted = 0 then .ok ([], source)
  else if source.fails then .error source.failure
  else
    let count := source.delivery wanted
    if count = 0 then .error .endOfInput
    else
      match (source.advance count).readExactly (wanted - count) with
      | .error error => .error error
      | .ok (rest, remaining) => .ok (source.ahead.take count ++ rest, remaining)
termination_by wanted
decreasing_by omega

def readToEnd (source : Source) : Except DeviceError (List UInt8 × Source) :=
  if source.fails then .error source.failure
  else
    let count := source.delivery source.ahead.length
    if count = 0 then .ok ([], source)
    else
      match (source.advance count).readToEnd with
      | .error error => .error error
      | .ok (rest, remaining) => .ok (source.ahead.take count ++ rest, remaining)
termination_by source.ahead.length
decreasing_by
  have := source.delivery_le source.ahead.length
  simp only [advance, List.length_drop]
  omega

end Source

/-- A writing device: the fields it has accepted, the latest first, and the number of bytes
it still has room for. No room given means no limit. -/
structure Sink where
  accepted : List (List UInt8) := []
  room : Option Nat := none
deriving DecidableEq, Repr

namespace Sink

def contents (sink : Sink) : List UInt8 :=
  sink.accepted.reverse.flatten

def fullDevice : DeviceError :=
  .refused (.other "Other") "disk full"

def write (sink : Sink) (field : List UInt8) : Except DeviceError Unit × Sink :=
  match sink.room with
  | none => (.ok (), { sink with accepted := field :: sink.accepted })
  | some room =>
    if field.length ≤ room then
      (.ok (), { accepted := field :: sink.accepted, room := some (room - field.length) })
    else (.error fullDevice, sink)

def writeAll (sink : Sink) : List (List UInt8) → Except DeviceError Unit × Sink
  | [] => (.ok (), sink)
  | field :: rest =>
    match sink.write field with
    | (.ok (), next) => next.writeAll rest
    | (.error error, next) => (.error error, next)

end Sink

end RangeRecall
