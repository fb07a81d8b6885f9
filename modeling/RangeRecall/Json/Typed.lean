import RangeRecall.Json.Ignored
import RangeRecall.Json.Value

/-!
Readers of values of a known type, built from lists, records and alternatives.
A value of another kind is refused with the name of what was expected.
-/

namespace RangeRecall

namespace Json

structure RecordField (δ : Type) where
  name : String
  store : δ → Reader δ
  isPresent : δ → Bool
  /-- Whether a list of values may end before this field. -/
  optional : Bool := false

def RecordField.ofReader (name : String) (reader : Reader α) (getField : δ → Option α)
    (setField : δ → α → δ) : RecordField δ where
  name := name
  store draft := do return setField draft (← reader)
  isPresent draft := (getField draft).isSome

/-- A record: an object with the given fields, or the list of their values in order. -/
structure RecordForm (δ α : Type) where
  expected : String
  expectedLength : String
  fields : List (RecordField δ)
  /-- Whether a member with another name is refused. -/
  refusesUnknown : Bool := false
  blank : δ
  complete : δ → Except Complaint α

structure Variant (α : Type) where
  name : String
  bare : Except Complaint α
  content : Reader α

def required (name : String) : Option α → Except Complaint α
  | some value => .ok value
  | none => .error (.missingField name)

namespace Reader

def refuse (expected : String) : Reader α := do
  match ← peek with
  | none => fail .endOfValue
  | some .letterN => do takeNull; fail (.invalidType .null expected)
  | some .letterT => do takeTrue; fail (.invalidType (.boolean true) expected)
  | some .letterF => do takeFalse; fail (.invalidType (.boolean false) expected)
  | some .minus => do fail (.invalidType (.number (← takeSignedNumber)) expected)
  | some .digit => do fail (.invalidType (.number (← takeSignedNumber)) expected)
  | some .quote => do advance; fail (.invalidType (.text (← takeText)) expected)
  | some .openList => fail (.invalidType .list expected)
  | some .openObject => fail (.invalidType .object expected)
  | some _ => fail .expectedValue

/-! ## Simple values -/

def number (expected : String) (convert : Number → Except Complaint α) : Reader α := do
  match ← peek with
  | none => fail .endOfValue
  | some .minus => do (convert (← takeSignedNumber) : Except _ _)
  | some .digit => do (convert (← takeSignedNumber) : Except _ _)
  | some _ => refuse expected

def natural (expected : String) (limit : Nat) : Reader Nat :=
  number expected fun
    | .natural value =>
      if value < limit then .ok value else .error (.invalidNumberValue (.natural value) expected)
    | .negative value => .error (.invalidNumberValue (.negative value) expected)
    | .real value => .error (.invalidType (.number (.real value)) expected)

def integer (expected : String) : Reader Int64 :=
  number expected fun
    | .natural value =>
      if value < signedLimit then .ok (Int64.ofNat value)
      else .error (.invalidNumberValue (.natural value) expected)
    | .negative value => .ok (Int64.ofInt value)
    | .real value => .error (.invalidType (.number (.real value)) expected)

def double : Reader Binary64 :=
  number "f64" fun
    | .natural value => .ok (Binary64.ofNat value)
    | .negative value => .ok (Binary64.ofInt value)
    | .real value => .ok value

def single : Reader Binary32 :=
  number "f32" fun
    | .natural value => .ok (Binary32.ofInt value)
    | .negative value => .ok (Binary32.ofInt value)
    | .real value => .ok value.toBinary32

def boolean : Reader Bool := do
  match ← peek with
  | none => fail .endOfValue
  | some .letterT => do takeTrue; return true
  | some .letterF => do takeFalse; return false
  | some _ => refuse "a boolean"

def text (expected : String) : Reader String := do
  match ← peek with
  | none => fail .endOfValue
  | some .quote => do advance; takeText
  | some _ => refuse expected

def optional (reader : Reader α) : Reader (Option α) := do
  match ← peek with
  | some .letterN => do takeNull; return none
  | _ => return some (← reader)

def null : Reader Unit := do
  match ← peek with
  | none => fail .endOfValue
  | some .letterN => takeNull
  | some _ => refuse "unit"

/-! ## Lists -/

def hasNextItem (isFirst : Bool) : Reader Bool := do
  match ← peek with
  | none => fail .endOfList
  | some .closeList => return false
  | some symbol =>
    if isFirst then return true
    else if symbol = .comma then
      advance
      match ← peek with
      | none => fail .endOfValue
      | some .closeList => fail .trailingComma
      | some _ => return true
    else fail .expectedListSeparator

def endList : Reader Unit := do
  match ← peek with
  | none => fail .endOfList
  | some .closeList => advance
  | some .comma =>
    advance
    match ← peek with
    | some .closeList => fail .trailingComma
    | _ => fail .trailingCharacters
  | some _ => fail .trailingCharacters

def takeItem (reader : Reader α) (items : List α) : Reader (List α ⊕ List α) := do
  if ← hasNextItem items.isEmpty then
    let item ← reader
    return .inl (item :: items)
  else return .inr items.reverse

def list (reader : Reader α) : Reader (List α) := do
  match ← peek with
  | none => fail .endOfValue
  | some .openList =>
    advance
    let items ← repeatUntil (takeItem reader) []
    endList
    return items
  | some _ => refuse "a sequence"

def pair (first : Reader α) (second : Reader β) : Reader (α × β) := do
  let expected := "a tuple of size 2"
  match ← peek with
  | none => fail .endOfValue
  | some .openList =>
    advance
    unless ← hasNextItem true do fail (.invalidLength 0 expected)
    let left ← first
    unless ← hasNextItem false do fail (.invalidLength 1 expected)
    let right ← second
    endList
    return (left, right)
  | some _ => refuse expected

/-! ## Records -/

def nextName? (isFirst : Bool) : Reader (Option String) := do
  match ← peek with
  | none => fail .endOfObject
  | some .closeObject => return none
  | some symbol =>
    if isFirst then
      if symbol = .quote then
        advance
        return some (← takeText)
      else fail .keyNotText
    else if symbol = .comma then
      advance
      match ← peek with
      | none => fail .endOfValue
      | some .quote =>
        advance
        return some (← takeText)
      | some .closeObject => fail .trailingComma
      | some _ => fail .keyNotText
    else fail .expectedObjectSeparator

def takeColon : Reader Unit := do
  match ← peek with
  | none => fail .endOfObject
  | some .colon => advance
  | some _ => fail .expectedColon

def endObject : Reader Unit := do
  match ← peek with
  | none => fail .endOfObject
  | some .closeObject => advance
  | some .comma => fail .trailingComma
  | some _ => fail .trailingCharacters

def takeMember (form : RecordForm δ α) : Bool × δ → Reader ((Bool × δ) ⊕ δ) :=
  fun (isFirst, draft) => do
    match ← nextName? isFirst with
    | none => return .inr draft
    | some name =>
      match form.fields.find? fun field => field.name = name with
      | some field =>
        if field.isPresent draft then
          fail (.duplicateField name)
        takeColon
        return .inl (false, ← field.store draft)
      | none =>
        if form.refusesUnknown then
          fail (.unknownField name (form.fields.map RecordField.name))
        takeColon
        skipValue
        return .inl (false, draft)

def takeValues (form : RecordForm δ α) :
    (position : Nat) → List (RecordField δ) → δ → Reader δ
  | _, [], draft => return draft
  | position, field :: rest, draft => do
    if ← hasNextItem (position == 0) then
      takeValues form (position + 1) rest (← field.store draft)
    else if field.optional then takeValues form (position + 1) rest draft
    else fail (.invalidLength position form.expectedLength)

def record (form : RecordForm δ α) : Reader α := do
  match ← peek with
  | none => fail .endOfValue
  | some .openList =>
    advance
    let draft ← takeValues form 0 form.fields form.blank
    let value ← (form.complete draft : Except _ _)
    endList
    return value
  | some .openObject =>
    advance
    let draft ← repeatUntil (takeMember form) (true, form.blank)
    let value ← (form.complete draft : Except _ _)
    endObject
    return value
  | some _ => refuse form.expected

/-! ## Alternatives -/

def findVariant (variants : List (Variant α)) (name : String) : Reader (Variant α) :=
  match variants.find? fun variant => variant.name = name with
  | some variant => return variant
  | none => fail (.unknownVariant name (variants.map Variant.name))

def takeVariantName : Reader String := do
  match ← peek with
  | none => fail .endOfObject
  | some .quote => do advance; takeText
  | some .closeObject => fail .expectedValue
  | some _ => fail .keyNotText

def choice (variants : List (Variant α)) : Reader α := do
  match ← peek with
  | none => fail .endOfValue
  | some .quote =>
    advance
    let variant ← findVariant variants (← takeText)
    (variant.bare : Except _ _)
  | some .openObject =>
    advance
    let variant ← findVariant variants (← takeVariantName)
    takeColon
    let value ← variant.content
    match ← peek with
    | none => fail .endOfObject
    | some .closeObject =>
      advance
      return value
    | some _ => fail .expectedValue
  | some _ => fail .expectedValue

end Reader

/-! ## Documents -/

class Document (α : Type) where
  toValue : α → Value
  reader : Reader α

def render [Document α] (value : α) : List UInt8 :=
  (Document.toValue value).toBytes

def parse [Document α] (bytes : List UInt8) : Except Complaint α := do
  let (value, rest) ← (Document.reader : Reader α).run bytes
  if (rest.dropWhile isBlank).isEmpty then return value else throw .trailingCharacters

end Json

end RangeRecall
