import RangeRecall.Json.Reader

/-!
Numbers in JSON text. An integer that fits a 64-bit word is kept exactly. Any
other number becomes a double: as many leading digits as fit a word, taken as a
double, are multiplied or divided by the double nearest to a power of ten.
-/

namespace RangeRecall

namespace Json

def greatestWord : Nat := wordLimit - 1

/-- The greatest exponent that can be written; larger ones count as boundless. -/
def greatestExponent : Nat := 2147483647

def digitValue (byte : UInt8) : Nat :=
  byte.toNat - 0x30

/-- Appends digits to a number while the result stays within a limit, and counts the digits
that are left over. -/
def appendDigits (limit : Nat) : Nat → List UInt8 → Nat × Nat
  | number, [] => (number, 0)
  | number, digit :: rest =>
    let longer := 10 * number + digitValue digit
    if longer ≤ limit then appendDigits limit longer rest else (number, rest.length + 1)

/-- Divides by ten to the 308 until the remaining exponent is in the table of powers. -/
def scaleDown (number : Binary64) (exponent : Nat) : Binary64 :=
  if exponent ≤ 308 then number.divide (Binary64.powerOfTen exponent)
  else if number.isZero then number
  else scaleDown (number.divide (Binary64.powerOfTen 308)) (exponent - 308)
termination_by exponent
decreasing_by omega

def scaled (significand : Nat) (exponent : Int) : Except Complaint Binary64 :=
  let number := Binary64.ofNat significand
  if exponent < 0 then .ok (scaleDown number exponent.natAbs)
  else if exponent ≤ 308 then
    let product := number.multiply (Binary64.powerOfTen exponent.natAbs)
    if product.isInfinite then .error .numberOutOfRange else .ok product
  else if number.isZero then .ok number
  else .error .numberOutOfRange

def withSign (negative : Bool) (number : Binary64) : Number :=
  .real (if negative then number.negate else number)

namespace Reader

def finishScaled (negative : Bool) (significand : Nat) (exponent : Int) : Reader Number := do
  let number ← (scaled significand exponent : Except _ _)
  return withSign negative number

def finishExponent (negative : Bool) (significand : Nat) (exponent : Int) : Reader Number := do
  let sign ← peekByte
  if sign = some 0x2b ∨ sign = some 0x2d then
    advance
  let digits ← takeDigits
  if digits.isEmpty then
    fail (if (← peekByte).isNone then .endOfValue else .invalidNumber)
  let (power, leftOver) := appendDigits greatestExponent 0 digits
  if 0 < leftOver then
    if significand ≠ 0 ∧ sign ≠ some 0x2d then
      fail .numberOutOfRange
    return withSign negative Binary64.zero
  finishScaled negative significand
    (if sign = some 0x2d then exponent - power else exponent + power)

def isExponentLetter (byte : Option UInt8) : Bool :=
  byte == some 0x65 || byte == some 0x45

def finishFraction (negative : Bool) (significand : Nat) (exponent : Int) : Reader Number := do
  let digits ← takeDigits
  if digits.isEmpty then
    fail (if (← peekByte).isNone then .endOfValue else .invalidNumber)
  let (longer, leftOver) := appendDigits greatestWord significand digits
  let exponent := exponent - (digits.length - leftOver : Nat)
  if isExponentLetter (← peekByte) then
    advance
    finishExponent negative longer exponent
  else finishScaled negative longer exponent

/-- An integer that fits. A negative one must fit a signed word, and zero has no sign there. -/
def integerNumber (negative : Bool) (significand : Nat) : Number :=
  if !negative then .natural significand
  else if significand = 0 ∨ signedLimit < significand then
    withSign true (Binary64.ofNat significand)
  else .negative (-(significand : Int))

def takeNumber (negative : Bool) : Reader Number := do
  let digits ← takeDigits
  match digits with
  | [] => fail (if (← peekByte).isNone then .endOfValue else .invalidNumber)
  | 0x30 :: _ :: _ => fail .invalidNumber
  | _ =>
    let (significand, leftOver) := appendDigits greatestWord 0 digits
    let next ← peekByte
    if next = some 0x2e then
      advance
      finishFraction negative significand leftOver
    else if isExponentLetter next then
      advance
      finishExponent negative significand leftOver
    else if leftOver = 0 then return integerNumber negative significand
    else finishScaled negative significand leftOver

def takeSignedNumber : Reader Number := do
  if (← peekByte) = some 0x2d then
    advance
    takeNumber true
  else takeNumber false

end Reader

end Json

end RangeRecall
