import RangeRecall.Json.Complaint

/-!
Readers of JSON text. A reader takes a value off the front of the bytes or
stops at the first thing that it cannot accept, so of two faults in a text the
earlier one is found.
-/

namespace RangeRecall

namespace Json

abbrev Reader := StateT (List UInt8) (Except Complaint)

inductive Symbol where
  | openList
  | closeList
  | openObject
  | closeObject
  | comma
  | colon
  | quote
  | minus
  | digit
  | letterN
  | letterT
  | letterF
  | other
deriving DecidableEq, Repr

def isDigit (byte : UInt8) : Bool :=
  0x30 ≤ byte && byte ≤ 0x39

def Symbol.ofByte (byte : UInt8) : Symbol :=
  if isDigit byte then .digit
  else match byte.toNat with
    | 0x5b => .openList
    | 0x5d => .closeList
    | 0x7b => .openObject
    | 0x7d => .closeObject
    | 0x2c => .comma
    | 0x3a => .colon
    | 0x22 => .quote
    | 0x2d => .minus
    | 0x6e => .letterN
    | 0x74 => .letterT
    | 0x66 => .letterF
    | _ => .other

def isBlank (byte : UInt8) : Bool :=
  byte == 0x20 || byte == 0x0a || byte == 0x09 || byte == 0x0d

namespace Reader

def fail (complaint : Complaint) : Reader α :=
  throw complaint

def peekByte : Reader (Option UInt8) := do
  return (← get).head?

def skipBlanks : Reader Unit :=
  modify (List.dropWhile isBlank)

def peek : Reader (Option Symbol) := do
  skipBlanks
  return (← peekByte).map Symbol.ofByte

def advance : Reader Unit :=
  modify (List.drop 1)

def nextByte : Reader (Option UInt8) := do
  let byte ← peekByte
  advance
  return byte

def repeatAtMost (step : σ → Reader (σ ⊕ α)) : (limit : Nat) → σ → Reader α
  | 0, _ => fail .expectedValue
  | limit + 1, state => do
    match ← step state with
    | .inl next => repeatAtMost step limit next
    | .inr value => return value

/-- Repeats a step until it answers. Every step but the last takes something, so the length
of the input bounds their number. -/
def repeatUntil (step : σ → Reader (σ ⊕ α)) (start : σ) : Reader α := do
  let input ← get
  repeatAtMost step (input.length + 1) start

def takeWord : List UInt8 → Reader Unit
  | [] => return ()
  | letter :: rest => do
    match ← nextByte with
    | none => fail .endOfValue
    | some byte => if byte = letter then takeWord rest else fail .expectedWord

def takeNull : Reader Unit :=
  takeWord [0x6e, 0x75, 0x6c, 0x6c]

def takeTrue : Reader Unit :=
  takeWord [0x74, 0x72, 0x75, 0x65]

def takeFalse : Reader Unit :=
  takeWord [0x66, 0x61, 0x6c, 0x73, 0x65]

def takeDigits : Reader (List UInt8) := do
  let input ← get
  set (input.dropWhile isDigit)
  return input.takeWhile isDigit

end Reader

end Json

end RangeRecall
