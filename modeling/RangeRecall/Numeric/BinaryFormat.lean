/-!
Binary interchange formats of floating-point numbers: what real number a bit
pattern stands for, and which pattern is nearest to a given fraction. Both
directions use exact integer arithmetic only. The powers that this takes and the
limits of machine words come first.
-/

namespace RangeRecall

def twoTo (exponent : Nat) : Nat :=
  Nat.pow 2 exponent

def tenTo (exponent : Nat) : Nat :=
  Nat.pow 10 exponent

def wordLimit : Nat := 18446744073709551616

def signedLimit : Nat := 9223372036854775808

def fieldLimit : Nat := 4294967296

/-! ## Formats -/

structure BinaryFormat where
  fractionBits : Nat
  exponentBits : Nat
deriving DecidableEq, Repr

/-- What a bit pattern stands for. A finite value is `significand * 2 ^ exponent` with a sign. -/
inductive RealValue where
  | nan
  | infinite (negative : Bool)
  | finite (negative : Bool) (significand : Nat) (exponent : Int)
deriving DecidableEq, Repr

/-- The quotient of two naturals, rounded to the nearest with ties to the even neighbour. -/
def nearestEvenQuotient (numerator denominator : Nat) : Nat :=
  let quotient := numerator / denominator
  let doubled := 2 * (numerator % denominator)
  if doubled < denominator then quotient
  else if denominator < doubled then quotient + 1
  else quotient + quotient % 2

namespace BinaryFormat

def single : BinaryFormat := { fractionBits := 23, exponentBits := 8 }

def double : BinaryFormat := { fractionBits := 52, exponentBits := 11 }

def bias (format : BinaryFormat) : Nat :=
  twoTo (format.exponentBits - 1) - 1

def leastExponent (format : BinaryFormat) : Int :=
  1 - (format.bias : Int) - format.fractionBits

/-- The pattern of positive infinity, which is also the least pattern that is not finite. -/
def infinityPattern (format : BinaryFormat) : Nat :=
  (twoTo format.exponentBits - 1) * twoTo format.fractionBits

def signPattern (format : BinaryFormat) (negative : Bool) : Nat :=
  if negative then twoTo (format.fractionBits + format.exponentBits) else 0

def decode (format : BinaryFormat) (pattern : Nat) : RealValue :=
  let fraction := pattern % twoTo format.fractionBits
  let biased := pattern / twoTo format.fractionBits % twoTo format.exponentBits
  let negative := pattern / twoTo (format.fractionBits + format.exponentBits) % 2 == 1
  if biased = twoTo format.exponentBits - 1 then
    if fraction = 0 then .infinite negative else .nan
  else if biased = 0 then
    .finite negative fraction format.leastExponent
  else
    .finite negative (fraction + twoTo format.fractionBits)
      (format.leastExponent + (biased - 1 : Nat))

/-- An exponent at which the fraction has no more significant bits than the format holds. -/
def placeExponent (format : BinaryFormat) (numerator denominator : Nat) : Int :=
  let estimate : Int := (Nat.log2 numerator : Int) - Nat.log2 denominator - format.fractionBits
  let fits := denominator * twoTo (estimate + format.fractionBits).toNat ≤
    numerator * twoTo (-(estimate + format.fractionBits)).toNat
  max (if fits then estimate else estimate - 1) format.leastExponent

/-- The pattern nearest to a fraction with the given sign, ties going to the even pattern. -/
def nearest (format : BinaryFormat) (negative : Bool) (numerator denominator : Nat) : Nat :=
  let magnitude :=
    if numerator = 0 then 0
    else
      let exponent := format.placeExponent numerator denominator
      let significand := nearestEvenQuotient (numerator * twoTo (-exponent).toNat)
        (denominator * twoTo exponent.toNat)
      min ((exponent - format.leastExponent).toNat * twoTo format.fractionBits + significand)
        format.infinityPattern
  format.signPattern negative + magnitude

def nearestScaled (format : BinaryFormat) (negative : Bool) (significand : Nat)
    (exponent : Int) : Nat :=
  format.nearest negative (significand * twoTo exponent.toNat) (twoTo (-exponent).toNat)

end BinaryFormat

end RangeRecall
