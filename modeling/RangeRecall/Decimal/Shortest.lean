import RangeRecall.Numeric.BinaryFormat

/-!
The shortest decimal that reads back as a given binary number. A number owns
the interval of reals that round to it. On the grid of `n` significant decimal
digits the two grid points around the number are tried, for growing `n`, and the
first grid with a point in the interval gives the answer.
-/

namespace RangeRecall

structure Decimal where
  digits : Nat
  exponent : Int
deriving DecidableEq, Repr

/-- Which of two equally near decimals is taken. -/
inductive TieRule where
  | up
  | toEven
deriving DecidableEq, Repr

/-- The reals that round to one binary number, as fractions over one denominator. The ends
belong to it when `closed` holds. -/
structure RoundingInterval where
  lower : Nat
  center : Nat
  upper : Nat
  denominator : Nat
  closed : Bool
deriving DecidableEq, Repr

namespace RoundingInterval

/-- The interval of `significand * 2 ^ exponent`. Below a power of two the next number is
only half as far away, except at the least exponent. -/
def ofFinite (format : BinaryFormat) (significand : Nat) (exponent : Int) : RoundingInterval :=
  let below := if significand = twoTo format.fractionBits ∧ exponent ≠ format.leastExponent
    then 1 else 2
  let quarter := twoTo (exponent - 2).toNat
  { lower := (4 * significand - below) * quarter
    center := 4 * significand * quarter
    upper := (4 * significand + 2) * quarter
    denominator := twoTo (2 - exponent).toNat
    closed := significand % 2 == 0 }

def contains (interval : RoundingInterval) (point scale : Nat) : Bool :=
  let reference := point * interval.denominator
  if interval.closed then
    interval.lower * scale ≤ reference && reference ≤ interval.upper * scale
  else
    interval.lower * scale < reference && reference < interval.upper * scale

/-- The two neighbours of the center on the grid of multiples of `10 ^ exponent`, the better
one that lies in the interval. -/
def gridPoint (interval : RoundingInterval) (tie : TieRule) (exponent : Int) : Option Nat :=
  let unit := tenTo exponent.toNat
  let scale := tenTo (-exponent).toNat
  let floor := interval.center * scale / (interval.denominator * unit)
  let below := interval.contains (floor * unit) scale
  let above := interval.contains ((floor + 1) * unit) scale
  let doubledCenter := 2 * interval.center * scale
  let middle := (2 * floor + 1) * unit * interval.denominator
  match below, above with
  | false, false => none
  | true, false => some floor
  | false, true => some (floor + 1)
  | true, true =>
    if doubledCenter < middle then some floor
    else if middle < doubledCenter then some (floor + 1)
    else match tie with
      | .up => some (floor + 1)
      | .toEven => some (floor + floor % 2)

def search (interval : RoundingInterval) (tie : TieRule) (exponent : Int) :
    Nat → Option Decimal
  | 0 => none
  | grids + 1 =>
    match interval.gridPoint tie exponent with
    | some digits => some { digits := digits, exponent := exponent }
    | none => interval.search tie (exponent - 1) grids

end RoundingInterval

namespace Decimal

def digitCount (natural : Nat) : Nat :=
  if natural = 0 then 0 else digitCount (natural / 10) + 1

def leadingZeros (denominator : Nat) (numerator : Nat) : Nat → Nat
  | 0 => 0
  | limit + 1 =>
    if 10 * numerator < denominator then leadingZeros denominator (10 * numerator) limit + 1
    else 0

def leadingPosition (numerator denominator : Nat) : Int :=
  if denominator ≤ numerator then digitCount (numerator / denominator)
  else -(leadingZeros denominator numerator denominator.log2 : Int)

def strip (decimal : Decimal) : Decimal :=
  if decimal.digits ≠ 0 ∧ decimal.digits % 10 = 0 then
    strip { digits := decimal.digits / 10, exponent := decimal.exponent + 1 }
  else decimal
termination_by decimal.digits
decreasing_by omega

/-- The shortest decimal that reads back as the positive number `significand * 2 ^ exponent`. -/
def shortest (format : BinaryFormat) (tie : TieRule) (significand : Nat) (exponent : Int) :
    Decimal :=
  let interval := RoundingInterval.ofFinite format significand exponent
  let first := leadingPosition interval.center interval.denominator
  match interval.search tie (first - 1) (format.fractionBits + 2) with
  | some decimal => decimal.strip
  | none => { digits := 0, exponent := 0 }

end Decimal

end RangeRecall
