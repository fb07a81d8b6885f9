import RangeRecall.Json.Number
import RangeRecall.Json.Text

/-!
Values that stand under a name nobody asks for. They are checked for their form
only, and a number there is never out of range.
-/

namespace RangeRecall

namespace Json

inductive Frame where
  | list
  | object
deriving DecidableEq, Repr

def Frame.closing : Frame → Symbol
  | .list => .closeList
  | .object => .closeObject

def Frame.endOfInput : Frame → Complaint
  | .list => .endOfList
  | .object => .endOfObject

def Frame.expectedSeparator : Frame → Complaint
  | .list => .expectedListSeparator
  | .object => .expectedObjectSeparator

namespace Reader

def skipExponent : Reader Unit := do
  let sign ← peekByte
  if sign = some 0x2b ∨ sign = some 0x2d then
    advance
  if (← takeDigits).isEmpty then
    fail .invalidNumber

def skipFraction : Reader Unit := do
  if (← takeDigits).isEmpty then
    fail .invalidNumber
  if isExponentLetter (← peekByte) then
    advance
    skipExponent

def skipNumber : Reader Unit := do
  if (← peekByte) = some 0x2d then
    advance
  match ← takeDigits with
  | [] => fail .invalidNumber
  | 0x30 :: _ :: _ => fail .invalidNumber
  | _ =>
    let next ← peekByte
    if next = some 0x2e then
      advance
      skipFraction
    else if isExponentLetter next then
      advance
      skipExponent

def skipName : Reader Unit := do
  match ← peek with
  | none => fail .endOfObject
  | some .quote => advance
  | some _ => fail .keyNotText
  skipText
  match ← peek with
  | none => fail .endOfObject
  | some .colon => advance
  | some _ => fail .expectedColon

def enter (frame : Frame) : Reader Unit :=
  match frame with
  | .list => return ()
  | .object => skipName

/-- Closes the open frames, the innermost first, as far as the text closes them. Answers with
the frames that stay open, where another value follows. A frame that holds a value takes a
comma. -/
def closeFrames (holdsValue : Bool) : List Frame → Reader (List Frame)
  | [] => return []
  | frame :: outer => do
    match ← peek with
    | none => fail frame.endOfInput
    | some symbol =>
      if symbol = .comma ∧ holdsValue then
        advance
        enter frame
        return frame :: outer
      else if symbol = frame.closing then
        advance
        closeFrames true outer
      else if holdsValue then fail frame.expectedSeparator
      else
        enter frame
        return frame :: outer

def skipStep (frames : List Frame) : Reader (List Frame ⊕ Unit) := do
  let opened ← match ← peek with
    | none => fail .endOfValue
    | some .letterN => do takeNull; pure none
    | some .letterT => do takeTrue; pure none
    | some .letterF => do takeFalse; pure none
    | some .minus => do skipNumber; pure none
    | some .digit => do skipNumber; pure none
    | some .quote => do advance; skipText; pure none
    | some .openList => do advance; pure (some Frame.list)
    | some .openObject => do advance; pure (some Frame.object)
    | some _ => fail .expectedValue
  let remaining ← match opened with
    | none => closeFrames true frames
    | some frame => closeFrames false (frame :: frames)
  return if remaining.isEmpty then .inr () else .inl remaining

def skipValue : Reader Unit :=
  repeatUntil skipStep []

end Reader

end Json

end RangeRecall
