import RangeRecall.Decimal.Text

/-!
JSON values for writing, and the bytes that they are written as: two blanks of
indentation for each level, one member to a line.
-/

namespace RangeRecall

namespace Json

inductive Value where
  | null
  | boolean (value : Bool)
  | integer (value : Int)
  | single (value : Binary32)
  | double (value : Binary64)
  | text (value : String)
  | list (items : List Value)
  | object (members : List (String × Value))

def bytesOf (text : String) : List UInt8 :=
  text.toUTF8.toList

def hexDigit (natural : Nat) : UInt8 :=
  UInt8.ofNat (if natural < 10 then 0x30 + natural else 0x57 + natural)

def escapedByte (byte : UInt8) : List UInt8 :=
  match byte.toNat with
  | 0x22 => [0x5c, 0x22]
  | 0x5c => [0x5c, 0x5c]
  | 0x08 => [0x5c, 0x62]
  | 0x0c => [0x5c, 0x66]
  | 0x0a => [0x5c, 0x6e]
  | 0x0d => [0x5c, 0x72]
  | 0x09 => [0x5c, 0x74]
  | point =>
    if point < 0x20 then
      [0x5c, 0x75, 0x30, 0x30, hexDigit (point / 16), hexDigit (point % 16)]
    else [byte]

def quotedBytes (text : String) : List UInt8 :=
  0x22 :: (bytesOf text).flatMap escapedByte ++ [0x22]

def lineStart (level : Nat) : List UInt8 :=
  0x0a :: List.replicate (2 * level) 0x20

/-- A number that is not real is written as null. -/
def realBytes (text? : Option String) : List UInt8 :=
  bytesOf (text?.getD "null")

namespace Value

mutual

def bytesAt (level : Nat) : Value → List UInt8
  | .null => bytesOf "null"
  | .boolean true => bytesOf "true"
  | .boolean false => bytesOf "false"
  | .integer value => bytesOf (Decimal.integerText value)
  | .single value => realBytes value.dataText?
  | .double value => realBytes value.dataText?
  | .text value => quotedBytes value
  | .list [] => [0x5b, 0x5d]
  | .list (first :: rest) =>
    0x5b :: lineStart (level + 1) ++ first.bytesAt (level + 1) ++
      itemBytes (level + 1) rest ++ lineStart level ++ [0x5d]
  | .object [] => [0x7b, 0x7d]
  | .object (first :: rest) =>
    0x7b :: lineStart (level + 1) ++ memberBytes (level + 1) first ++
      membersBytes (level + 1) rest ++ lineStart level ++ [0x7d]

def itemBytes (level : Nat) : List Value → List UInt8
  | [] => []
  | item :: rest => 0x2c :: lineStart level ++ item.bytesAt level ++ itemBytes level rest

def memberBytes (level : Nat) : String × Value → List UInt8
  | (name, value) => quotedBytes name ++ [0x3a, 0x20] ++ value.bytesAt level

def membersBytes (level : Nat) : List (String × Value) → List UInt8
  | [] => []
  | member :: rest =>
    0x2c :: lineStart level ++ memberBytes level member ++ membersBytes level rest

end

def toBytes (value : Value) : List UInt8 :=
  value.bytesAt 0 ++ [0x0a]

end Value

end Json

end RangeRecall
