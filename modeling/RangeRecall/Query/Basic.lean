import RangeRecall.Numeric.Binary32

/-!
Logical queries: which vector, which predicate and how the store is expected to
answer. Nothing here depends on how a store is spoken to.
-/

namespace RangeRecall

inductive ScanStrategy where
  | indexScan
  | sequentialScan
deriving DecidableEq, Repr

namespace ScanStrategy

def all : List ScanStrategy :=
  [.sequentialScan, .indexScan]

def name : ScanStrategy → String
  | .indexScan => "index-scan"
  | .sequentialScan => "sequential-scan"

def ofName? (name : String) : Option ScanStrategy :=
  all.find? fun strategy => strategy.name = name

end ScanStrategy

inductive IdFilter where
  | lessThan (bound : UInt64)
deriving DecidableEq, Repr

def IdFilter.admits : IdFilter → UInt64 → Bool
  | .lessThan bound, id => id < bound

inductive QueryKind where
  | range (threshold : Binary32)
  | topK (k : Nat) (filter : Option IdFilter)
deriving DecidableEq, Repr

namespace QueryKind

def threshold? : QueryKind → Option Binary32
  | .range threshold => some threshold
  | .topK _ _ => none

end QueryKind

/-- One query. Its index is the position of its vector in the batch it was made from. -/
structure Query where
  index : Nat
  strategy : ScanStrategy
  kind : QueryKind
  vector : List Binary32
deriving DecidableEq, Repr

end RangeRecall
