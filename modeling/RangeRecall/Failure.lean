import RangeRecall.Numeric.BinaryFormat

/-!
The two ways an operation can end without an answer. A reported error is part
of the operation's contract. A fault is a broken precondition: nothing can be
reported about it, and the whole activity stops.
-/

namespace RangeRecall

inductive Fault where
  | indexOutOfRange
  | lengthMismatch
  | arithmeticOverflow
  | capacityExceeded
deriving DecidableEq, Repr

/-- A reported error of type `ε`, or a fault. -/
inductive Failure (ε : Type) where
  | error (cause : ε)
  | fault (fault : Fault)
deriving DecidableEq, Repr

namespace Failure

def map (transform : ε → δ) : Failure ε → Failure δ
  | .error cause => .error (transform cause)
  | .fault broken => .fault broken

end Failure

instance : MonadLift (Except ε) (Except (Failure ε)) where
  monadLift result := result.mapError .error

instance : MonadLift (Except Fault) (Except (Failure ε)) where
  monadLift result := result.mapError .fault

def allocationLimit : Nat := signedLimit - 1

/-- Refuses a reservation of `count` items of `itemSize` bytes that no allocation can serve. -/
def reserve (count itemSize : Nat) : Except Fault Unit :=
  if count * itemSize ≤ allocationLimit then .ok () else .error .capacityExceeded

def addWords (left right : UInt64) : Except Fault UInt64 :=
  if left.toNat + right.toNat < wordLimit then .ok (left + right)
  else .error .arithmeticOverflow

end RangeRecall
