import RangeRecall.Json.Reader
import RangeRecall.Text.Escapes

/-!
Texts in JSON: bytes between quotes, with escapes. The bytes that result must
be well-formed UTF-8 when a text is wanted.
-/

namespace RangeRecall

namespace Json

def shortEscape? (letter : UInt8) : Option UInt8 :=
  match letter.toNat with
  | 0x22 => some 0x22
  | 0x5c => some 0x5c
  | 0x2f => some 0x2f
  | 0x62 => some 0x08
  | 0x66 => some 0x0c
  | 0x6e => some 0x0a
  | 0x72 => some 0x0d
  | 0x74 => some 0x09
  | _ => none

def isLeading (unit : Nat) : Bool :=
  0xd800 ≤ unit && unit ≤ 0xdbff

def isTrailing (unit : Nat) : Bool :=
  0xdc00 ≤ unit && unit ≤ 0xdfff

def encodedPoint (point : Nat) : List UInt8 :=
  (String.ofList [Char.ofNat point]).toUTF8.toList

namespace Reader

def takeUnit : Reader Nat := do
  let input ← get
  if input.length < 4 then
    fail .endOfString
  set (input.drop 4)
  match Hexadecimal.appended? 0 ((input.take 4).map fun byte => Char.ofNat byte.toNat) with
  | some unit => return unit
  | none => fail .invalidEscape

def takeEscapePart (expected : UInt8) : Reader Unit := do
  match ← nextByte with
  | none => fail .endOfString
  | some byte => if byte = expected then return () else fail .unfinishedSurrogate

/-- Takes an escape by code units. A leading surrogate must be followed by a trailing one. -/
def takePoint : Reader (List UInt8) := do
  let first ← takeUnit
  if isTrailing first then
    fail .loneSurrogate
  if isLeading first then
    takeEscapePart 0x5c
    takeEscapePart 0x75
    let second ← takeUnit
    if !isTrailing second then
      fail .loneSurrogate
    return encodedPoint ((first - 0xd800) * 0x400 + (second - 0xdc00) + 0x10000)
  return encodedPoint first

def takeEscape : Reader (List UInt8) := do
  match ← nextByte with
  | none => fail .endOfString
  | some 0x75 => takePoint
  | some letter =>
    match shortEscape? letter with
    | some byte => return [byte]
    | none => fail .invalidEscape

def skipEscape : Reader (List UInt8) := do
  match ← nextByte with
  | none => fail .endOfString
  | some 0x75 =>
    let _ ← takeUnit
    return []
  | some letter => if (shortEscape? letter).isSome then return [] else fail .invalidEscape

def takePiece (escape : Reader (List UInt8)) (pieces : List (List UInt8)) :
    Reader (List (List UInt8) ⊕ List UInt8) := do
  match ← nextByte with
  | none => fail .endOfString
  | some 0x22 => return .inr pieces.reverse.flatten
  | some 0x5c =>
    let piece ← escape
    return .inl (piece :: pieces)
  | some byte =>
    if byte < 0x20 then
      fail .controlCharacter
    return .inl ([byte] :: pieces)

def takeText : Reader String := do
  let bytes ← repeatUntil (takePiece takeEscape) []
  match String.fromUTF8? (ByteArray.mk bytes.toArray) with
  | some text => return text
  | none => fail .invalidText

def skipText : Reader Unit := do
  let _ ← repeatUntil (takePiece skipEscape) []
  return ()

end Reader

end Json

end RangeRecall
