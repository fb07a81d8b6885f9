import RangeRecall.Store.Backend
import RangeRecall.Store.WorstFirst
import RangeRecall.Vector.Batch

/-!
Exact stores over a batch in memory. Row `i` has the identifier `i + idBase`.
Both scan strategies are answered by looking at every row.
-/

namespace RangeRecall

structure Candidate where
  id : UInt64
  distance : Binary32
deriving DecidableEq, Repr

def Candidate.isNearer (left right : Candidate) : Bool :=
  left.distance.isLess right.distance

structure MemoryStore where
  base : VectorBatch
  metric : DistanceMetric := .euclidean
  idBase : UInt64 := 1
  target : SqlTarget := SqlTarget.default
  settings : List (String × String) := []
  submitted : Nat := 0
  closed : Bool := false
deriving DecidableEq

namespace MemoryStore

def idOf (store : MemoryStore) (row : Nat) : Except Fault UInt64 :=
  addWords (UInt64.ofNat row) store.idBase

/-- The identifiers of the rows strictly nearer than the threshold, in row order, from the
given row on. Only the rows that are returned are numbered. -/
def idsWithin (store : MemoryStore) (query : List Binary32) (threshold : Binary32) :
    (row : Nat) → List (List Binary32) → Except Fault (List UInt64)
  | _, [] => .ok []
  | row, vector :: rest => do
    let distance ← store.metric.distance query vector
    if distance.isLess threshold then
      let id ← store.idOf row
      let others ← store.idsWithin query threshold (row + 1) rest
      return id :: others
    else store.idsWithin query threshold (row + 1) rest

def rangeSearch (store : MemoryStore) (query : List Binary32) (threshold : Binary32) :
    Except Fault (List UInt64) :=
  store.idsWithin query threshold 0 store.base.rows

/-- The rows whose identifiers are admitted, with their distances, from the given row on. Every
row is numbered, and only the admitted ones are measured. -/
def candidates (store : MemoryStore) (query : List Binary32) (admits : UInt64 → Bool) :
    (row : Nat) → List (List Binary32) → Except Fault (List Candidate)
  | _, [] => .ok []
  | row, vector :: rest => do
    let id ← store.idOf row
    if admits id then
      let distance ← store.metric.distance query vector
      let others ← store.candidates query admits (row + 1) rest
      return { id := id, distance := distance } :: others
    else store.candidates query admits (row + 1) rest

def nearest (k : Nat) (candidates : List Candidate) : List Candidate :=
  (WorstFirst.sorted Candidate.isNearer
    (candidates.foldl (WorstFirst.offer Candidate.isNearer k) #[])).toList

def candidateSize : Nat := 16

def topKSearch (store : MemoryStore) (query : List Binary32) (k : Nat)
    (admits : UInt64 → Bool) : Except Fault (List UInt64) :=
  if k = 0 then .ok []
  else do
    reserve k candidateSize
    let rows ← store.candidates query admits 0 store.base.rows
    return (nearest k rows).map Candidate.id

def admitsAll (filter : Option IdFilter) (id : UInt64) : Bool :=
  match filter with
  | none => true
  | some filter => filter.admits id

def search (store : MemoryStore) (query : Query) : Except Fault (List UInt64) :=
  match query.kind with
  | .range threshold => store.rangeSearch query.vector threshold
  | .topK k filter => store.topKSearch query.vector k (admitsAll filter)

/-- Answers a query and counts it. A closed store and a vector of the wrong dimension are
refused without being counted; an empty store takes vectors of every dimension. -/
def submit (store : MemoryStore) (query : Query) :
    Except (Failure StoreError) (List UInt64) × MemoryStore :=
  if store.closed then
    (.error (.error { kind := .connection, detail := "store is closed" }), store)
  else if query.vector.length ≠ store.base.dimension ∧ !store.base.isEmpty then
    (.error (.error {
      kind := .rejected
      detail := "expected " ++ Decimal.naturalText store.base.dimension ++
        " dimensions, got " ++ Decimal.naturalText query.vector.length }), store)
  else
    ((store.search query).mapError .fault, { store with submitted := store.submitted + 1 })

def applySetting (store : MemoryStore) (name value : String) : MemoryStore :=
  { store with settings := (name, value) :: store.settings }

def setting? (store : MemoryStore) (name : String) : Option String :=
  store.settings.lookup name

def close (store : MemoryStore) : MemoryStore :=
  { store with closed := true }

/-- A store for a target, made from a template with everything that the template holds. -/
def connect (template : MemoryStore) (target : SqlTarget) : MemoryStore :=
  { template with target := target }

end MemoryStore

structure MemoryHost where
  template : MemoryStore
  connection : MemoryStore
  stopRequested : Bool := false

namespace MemoryHost

def ofStore (store : MemoryStore) : MemoryHost :=
  { template := store, connection := store }

def backend : Backend MemoryHost where
  connect target host := (.ok (), { host with connection := host.template.connect target })
  applySetting name value host :=
    (.ok (), { host with connection := host.connection.applySetting name value })
  submit query host :=
    let (reply, connection) := host.connection.submit query
    (reply, { host with connection := connection })
  close host := (.ok (), { host with connection := host.connection.close })
  stopRequested host := host.stopRequested

end MemoryHost

end RangeRecall
