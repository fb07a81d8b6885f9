import RangeRecall.Numeric.BinaryFormat

/-!
Single-precision numbers, held as bit patterns so that a stored value keeps
the payload of a not-a-number. Comparisons follow the IEEE rules: nothing is
less than a not-a-number, and the two zeros are equal.
-/

namespace RangeRecall

structure Binary32 where
  bits : UInt32
deriving DecidableEq, Repr

namespace Binary32

def toFloat (number : Binary32) : Float32 :=
  Float32.ofBits number.bits

def ofFloat (number : Float32) : Binary32 :=
  { bits := number.toBits }

def value (number : Binary32) : RealValue :=
  BinaryFormat.single.decode number.bits.toNat

def isNaN (number : Binary32) : Bool :=
  number.value == .nan

def isLess (left right : Binary32) : Bool :=
  left.toFloat.lt right.toFloat

def add (left right : Binary32) : Binary32 :=
  ofFloat (left.toFloat + right.toFloat)

def subtract (left right : Binary32) : Binary32 :=
  ofFloat (left.toFloat - right.toFloat)

def multiply (left right : Binary32) : Binary32 :=
  ofFloat (left.toFloat * right.toFloat)

def squareRoot (number : Binary32) : Binary32 :=
  ofFloat number.toFloat.sqrt

def negativeZero : Binary32 :=
  { bits := 0x80000000 }

def ofInt (integer : Int) : Binary32 :=
  { bits := UInt32.ofNat (BinaryFormat.single.nearest (integer < 0) integer.natAbs 1) }

end Binary32

end RangeRecall
