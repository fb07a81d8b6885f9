import RangeRecall.Decimal.Shortest
import RangeRecall.Numeric.Binary64

/-!
Decimal texts of numbers: positional without an exponent, with an exponent
outside a window of magnitudes, and with a fixed number of places.
-/

namespace RangeRecall

namespace Decimal

def naturalText (natural : Nat) : String :=
  String.ofList (Nat.toDigits 10 natural)

def integerText (integer : Int) : String :=
  if integer < 0 then "-" ++ naturalText integer.natAbs else naturalText integer.natAbs

def positionalText (decimal : Decimal) : String :=
  if 0 ≤ decimal.exponent then
    naturalText (decimal.digits * tenTo decimal.exponent.toNat)
  else
    let places := (-decimal.exponent).toNat
    let fraction := naturalText (decimal.digits % tenTo places)
    naturalText (decimal.digits / tenTo places) ++ "." ++
      String.ofList (List.replicate (places - fraction.length) '0') ++ fraction

def magnitude (decimal : Decimal) : Int :=
  (digitCount decimal.digits : Int) - 1 + decimal.exponent

def scientificText (decimal : Decimal) : String :=
  let power := decimal.magnitude
  let sign := if power < 0 then "-" else "+"
  let mantissa := match Nat.toDigits 10 decimal.digits with
    | [] => ""
    | [digit] => String.ofList [digit]
    | digit :: rest => String.ofList (digit :: '.' :: rest)
  mantissa ++ "e" ++ sign ++ naturalText power.natAbs

/-- The magnitudes at which a text is positional. -/
structure PositionalWindow where
  least : Int
  greatest : Int
deriving DecidableEq, Repr

/-- Positional within the window, always with a fraction part; with an exponent outside. -/
def windowedText (window : PositionalWindow) (decimal : Decimal) : String :=
  if window.least ≤ decimal.magnitude ∧ decimal.magnitude ≤ window.greatest then
    if 0 ≤ decimal.exponent then decimal.positionalText ++ ".0" else decimal.positionalText
  else decimal.scientificText

def fixedText (places numerator denominator : Nat) : String :=
  let scaled := nearestEvenQuotient (numerator * tenTo places) denominator
  let fraction := naturalText (scaled % tenTo places)
  naturalText (scaled / tenTo places) ++ "." ++
    String.ofList (List.replicate (places - fraction.length) '0') ++ fraction

def signText (negative : Bool) : String :=
  if negative then "-" else ""

end Decimal

namespace RealValue

/-- The shortest text that reads back, never with an exponent; the greater of two equally
near decimals is taken. -/
def plainText (format : BinaryFormat) : RealValue → String
  | .nan => "NaN"
  | .infinite negative => Decimal.signText negative ++ "inf"
  | .finite negative 0 _ => Decimal.signText negative ++ "0"
  | .finite negative significand exponent =>
    Decimal.signText negative ++
      (Decimal.shortest format .up significand exponent).positionalText

/-- The shortest text that reads back, as data formats write numbers; nothing for a value
that is not a real number. -/
def dataText? (format : BinaryFormat) (window : Decimal.PositionalWindow) :
    RealValue → Option String
  | .nan => none
  | .infinite _ => none
  | .finite negative 0 _ => some (Decimal.signText negative ++ "0.0")
  | .finite negative significand exponent =>
    some (Decimal.signText negative ++
      (Decimal.shortest format .toEven significand exponent).windowedText window)

def fixedText (places : Nat) : RealValue → String
  | .nan => "NaN"
  | .infinite negative => Decimal.signText negative ++ "inf"
  | .finite negative significand exponent =>
    Decimal.signText negative ++
      Decimal.fixedText places (significand * twoTo exponent.toNat) (twoTo (-exponent).toNat)

end RealValue

namespace Binary32

def plainText (number : Binary32) : String :=
  number.value.plainText BinaryFormat.single

/-- Data texts are positional from a millionth to below ten million million. -/
def window : Decimal.PositionalWindow where
  least := -6
  greatest := 12

def dataText? (number : Binary32) : Option String :=
  number.value.dataText? BinaryFormat.single window

end Binary32

namespace Binary64

/-- Data texts are positional from a hundred-thousandth to below ten thousand million million. -/
def window : Decimal.PositionalWindow where
  least := -5
  greatest := 15

def dataText? (number : Binary64) : Option String :=
  number.value.dataText? BinaryFormat.double window

def fixedText (number : Binary64) (places : Nat) : String :=
  number.value.fixedText places

end Binary64

end RangeRecall
