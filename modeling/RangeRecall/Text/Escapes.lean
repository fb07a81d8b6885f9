import RangeRecall.Text.Characters

/-!
Hexadecimal texts, and quoted texts for messages. Quotes, backslashes and the
common control characters have short escapes, and a character that would not
show is written by its code point.
-/

namespace RangeRecall

namespace Hexadecimal

def digits (natural : Nat) : List Char :=
  Nat.toDigits 16 natural

def padded (width natural : Nat) : String :=
  let shown := digits natural
  String.ofList (List.replicate (width - shown.length) '0' ++ shown)

def value? (digit : Char) : Option Nat :=
  if '0' ≤ digit ∧ digit ≤ '9' then some (digit.toNat - 0x30)
  else if 'a' ≤ digit ∧ digit ≤ 'f' then some (digit.toNat - 0x57)
  else if 'A' ≤ digit ∧ digit ≤ 'F' then some (digit.toNat - 0x37)
  else none

def appended? : Nat → List Char → Option Nat
  | number, [] => some number
  | number, digit :: rest =>
    match value? digit with
    | some value => appended? (16 * number + value) rest
    | none => none

def toNat? (text : String) : Option Nat :=
  appended? 0 text.toList

def ofBytes (bytes : List UInt8) : String :=
  String.join (bytes.map fun byte => padded 2 byte.toNat)

def bytesOf? : List Char → Option (List UInt8)
  | [] => some []
  | [_] => none
  | high :: low :: rest => do
    let byte := 16 * (← value? high) + (← value? low)
    return UInt8.ofNat byte :: (← bytesOf? rest)

def toBytes? (text : String) : Option (List UInt8) :=
  bytesOf? text.toList

end Hexadecimal

namespace Text

def quotedCharacter (character : Char) : List Char :=
  if character = '\x00' then ['\\', '0']
  else if character = '\t' then ['\\', 't']
  else if character = '\r' then ['\\', 'r']
  else if character = '\n' then ['\\', 'n']
  else if character = '\\' then ['\\', '\\']
  else if character = '\x22' then ['\\', '\x22']
  else if isInvisible character then
    ['\\', 'u', '\x7b'] ++ Hexadecimal.digits character.toNat ++ ['\x7d']
  else [character]

def quoted (text : String) : String :=
  String.ofList ('\x22' :: text.toList.flatMap quotedCharacter ++ ['\x22'])

end Text

end RangeRecall
