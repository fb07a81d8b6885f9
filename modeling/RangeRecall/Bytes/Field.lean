import RangeRecall.Bytes.Word
import RangeRecall.Error

/-!
The four-byte fields that all data files are made of.
-/

namespace RangeRecall

namespace Binary32

def toBytes (number : Binary32) : List UInt8 :=
  LittleEndian.encode 4 number.bits.toNat

def ofBytes (bytes : List UInt8) : Binary32 :=
  { bits := UInt32.ofNat (LittleEndian.decode bytes) }

end Binary32

def encodeWord (field : String) (value : Nat) : Except Error (List UInt8) :=
  if value < fieldLimit then .ok (LittleEndian.encode 4 value)
  else .error (.invalidParameter (.exceedsField field value))

/-- What a failed read of a whole field is reported as. Only the kind of the error tells an input
that has ended from a device that fails. -/
def DeviceError.report (error : DeviceError) (ended : Error) : Error :=
  match error.kind with
  | .unexpectedEof => ended
  | _ => .device error

def Source.fill (source : Source) (wanted : Nat) (field : String) :
    Except Error (List UInt8 × Source) :=
  (source.readExactly wanted).mapError fun error => error.report (.format (.inputEnds field))

def Sink.writeFields (sink : Sink) (fields : List (List UInt8)) : Except Error Unit × Sink :=
  match sink.writeAll fields with
  | (.ok (), next) => (.ok (), next)
  | (.error error, next) => (.error (.device error), next)

def Sink.writeWord (sink : Sink) (field : String) (value : Nat) : Except Error Unit × Sink :=
  match encodeWord field value with
  | .ok bytes => sink.writeFields [bytes]
  | .error error => (.error error, sink)

end RangeRecall
