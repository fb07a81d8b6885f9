import RangeRecall.Decimal.Text
import RangeRecall.Text.Escapes

/-!
What a JSON reader can find wrong with a text, and how it words each finding.
-/

namespace RangeRecall

namespace Json

/-- A number as its text was written. -/
inductive Number where
  | natural (value : Nat)
  | negative (value : Int)
  | real (value : Binary64)
deriving DecidableEq, Repr

inductive Found where
  | null
  | boolean (value : Bool)
  | number (value : Number)
  | text (value : String)
  | list
  | object
  | bareVariant
deriving DecidableEq, Repr

def Number.description : Number → String
  | .natural value => "integer \x60" ++ Decimal.naturalText value ++ "\x60"
  | .negative value => "integer \x60" ++ Decimal.integerText value ++ "\x60"
  | .real value => "floating point \x60" ++ value.dataText?.getD "" ++ "\x60"

def Found.description : Found → String
  | .null => "null"
  | .boolean value => "boolean \x60" ++ (if value then "true" else "false") ++ "\x60"
  | .number value => value.description
  | .text value => "string " ++ Text.quoted value
  | .list => "sequence"
  | .object => "map"
  | .bareVariant => "unit variant"

inductive Complaint where
  | endOfValue
  | endOfList
  | endOfObject
  | endOfString
  | expectedColon
  | expectedListSeparator
  | expectedObjectSeparator
  | expectedWord
  | expectedValue
  | invalidEscape
  | unfinishedSurrogate
  | loneSurrogate
  | invalidNumber
  | numberOutOfRange
  | invalidText
  | controlCharacter
  | keyNotText
  | trailingComma
  | trailingCharacters
  | invalidType (found : Found) (expected : String)
  | invalidNumberValue (found : Number) (expected : String)
  | invalidLength (length : Nat) (expected : String)
  | missingField (name : String)
  | duplicateField (name : String)
  | unknownField (name : String) (known : List String)
  | unknownVariant (name : String) (known : List String)
  | durationOverflow
  | invalidContent (reason : String)
deriving DecidableEq, Repr

namespace Complaint

def codeText (name : String) : String :=
  "\x60" ++ name ++ "\x60"

def choiceText (names : List String) : String :=
  match names.map codeText with
  | [] => ""
  | [only] => only
  | [first, second] => first ++ " or " ++ second
  | several => "one of " ++ ", ".intercalate several

def message : Complaint → String
  | .endOfValue => "EOF while parsing a value"
  | .endOfList => "EOF while parsing a list"
  | .endOfObject => "EOF while parsing an object"
  | .endOfString => "EOF while parsing a string"
  | .expectedColon => "expected \x60:\x60"
  | .expectedListSeparator => "expected \x60,\x60 or \x60]\x60"
  | .expectedObjectSeparator => "expected \x60,\x60 or \x60\x7d\x60"
  | .expectedWord => "expected ident"
  | .expectedValue => "expected value"
  | .invalidEscape => "invalid escape"
  | .unfinishedSurrogate => "unexpected end of hex escape"
  | .loneSurrogate => "lone leading surrogate in hex escape"
  | .invalidNumber => "invalid number"
  | .numberOutOfRange => "number out of range"
  | .invalidText => "invalid unicode code point"
  | .controlCharacter =>
    "control character (\\u0000-\\u001F) found while parsing a string"
  | .keyNotText => "key must be a string"
  | .trailingComma => "trailing comma"
  | .trailingCharacters => "trailing characters"
  | .invalidType found expected =>
    "invalid type: " ++ found.description ++ ", expected " ++ expected
  | .invalidNumberValue found expected =>
    "invalid value: " ++ found.description ++ ", expected " ++ expected
  | .invalidLength length expected =>
    "invalid length " ++ Decimal.naturalText length ++ ", expected " ++ expected
  | .missingField name => "missing field " ++ codeText name
  | .duplicateField name => "duplicate field " ++ codeText name
  | .unknownField name known =>
    "unknown field " ++ codeText name ++ ", expected " ++ choiceText known
  | .unknownVariant name known =>
    "unknown variant " ++ codeText name ++ ", expected " ++ choiceText known
  | .durationOverflow => "overflow deserializing Duration"
  | .invalidContent reason => reason

end Complaint

end Json

end RangeRecall
