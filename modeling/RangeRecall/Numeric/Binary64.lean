import RangeRecall.Numeric.Binary32

/-!
Double-precision numbers, held as bit patterns like the single-precision ones.
-/

namespace RangeRecall

/-- Each operation may round its exact result, so definitions over this class fix the order of
operations and leave the rounding to the instance. -/
class RealArithmetic (α : Type) where
  ofNat : Nat → α
  add : α → α → α
  multiply : α → α → α
  divide : α → α → α
  /-- The nearest natural number, half-way cases going up, and zero for what is not positive. -/
  roundToNat : α → Nat

structure Binary64 where
  bits : UInt64
deriving DecidableEq, Repr

namespace Binary64

def toFloat (number : Binary64) : Float :=
  Float.ofBits number.bits

def ofFloat (number : Float) : Binary64 :=
  { bits := number.toBits }

def value (number : Binary64) : RealValue :=
  BinaryFormat.double.decode number.bits.toNat

def isNaN (number : Binary64) : Bool :=
  number.value == .nan

def isInfinite (number : Binary64) : Bool :=
  number.value == .infinite true || number.value == .infinite false

def isZero (number : Binary64) : Bool :=
  number.bits.toNat % signedLimit == 0

def add (left right : Binary64) : Binary64 :=
  ofFloat (left.toFloat + right.toFloat)

def multiply (left right : Binary64) : Binary64 :=
  ofFloat (left.toFloat * right.toFloat)

def divide (left right : Binary64) : Binary64 :=
  ofFloat (left.toFloat / right.toFloat)

def negate (number : Binary64) : Binary64 :=
  { bits := number.bits ^^^ 0x8000000000000000 }

def zero : Binary64 :=
  { bits := 0 }

def one : Binary64 :=
  { bits := 0x3ff0000000000000 }

def ofNat (natural : Nat) : Binary64 :=
  { bits := UInt64.ofNat (BinaryFormat.double.nearest false natural 1) }

def ofInt (integer : Int) : Binary64 :=
  { bits := UInt64.ofNat (BinaryFormat.double.nearest (integer < 0) integer.natAbs 1) }

def powerOfTen (exponent : Nat) : Binary64 :=
  ofNat (tenTo exponent)

/-- The nearest natural number below `wordLimit`, half-way cases going up; zero for a number
that is not positive, the greatest word for a number that is too large. -/
def roundToNat (number : Binary64) : Nat :=
  match number.value with
  | .nan => 0
  | .infinite negative => if negative then 0 else wordLimit - 1
  | .finite true _ _ => 0
  | .finite false significand exponent =>
    let scaled := 2 * significand * twoTo exponent.toNat
    let unit := twoTo (-exponent).toNat
    min ((scaled + unit) / (2 * unit)) (wordLimit - 1)

/-- Orders all patterns: negative numbers from the largest magnitude on, then the others. -/
def orderKey (number : Binary64) : Nat :=
  let pattern := number.bits.toNat
  if pattern < signedLimit then pattern + signedLimit else wordLimit - 1 - pattern

def precedes (left right : Binary64) : Bool :=
  left.orderKey ≤ right.orderKey

def toBinary32 (number : Binary64) : Binary32 :=
  match number.value with
  | .nan => { bits := 0x7fc00000 }
  | .infinite negative =>
    { bits := UInt32.ofNat (BinaryFormat.single.signPattern negative +
        BinaryFormat.single.infinityPattern) }
  | .finite negative significand exponent =>
    { bits := UInt32.ofNat (BinaryFormat.single.nearestScaled negative significand exponent) }

instance : RealArithmetic Binary64 where
  ofNat := ofNat
  add := add
  multiply := multiply
  divide := divide
  roundToNat := roundToNat

end Binary64

end RangeRecall
