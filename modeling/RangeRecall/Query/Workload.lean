import RangeRecall.Decimal.Text
import RangeRecall.Query.Basic
import RangeRecall.Vector.Batch

/-!
The queries of a benchmark run, one for each vector of a batch, and queries as
parameterized SQL statements. The vector and the threshold are typed parameters,
never part of the statement text. Integers are bound as signed 64-bit numbers.
-/

namespace RangeRecall

namespace Query

def range (index : Nat) (vector : List Binary32) (threshold : Binary32)
    (strategy : ScanStrategy) : Query :=
  { index := index, strategy := strategy, kind := .range threshold, vector := vector }

def rangePair (index : Nat) (vector : List Binary32) (threshold : Binary32) : Query × Query :=
  (range index vector threshold .indexScan, range index vector threshold .sequentialScan)

def numbered (strategy : ScanStrategy) (kind : QueryKind) :
    (index : Nat) → List (List Binary32) → List Query
  | _, [] => []
  | index, vector :: rest =>
    { index := index, strategy := strategy, kind := kind, vector := vector } ::
      numbered strategy kind (index + 1) rest

def rangeQueries (batch : VectorBatch) (threshold : Binary32) (strategy : ScanStrategy) :
    List Query :=
  numbered strategy (.range threshold) 0 batch.rows

def topKQueries (batch : VectorBatch) (k : Nat) (filter : Option IdFilter)
    (strategy : ScanStrategy) : List Query :=
  numbered strategy (.topK k filter) 0 batch.rows

end Query

/-! ## Statements -/

structure SqlTarget where
  table : String
  idColumn : String
  vectorColumn : String
deriving DecidableEq, Repr

namespace SqlTarget

def default : SqlTarget :=
  { table := "sift1m", idColumn := "id", vectorColumn := "embedding" }

def ofTable (table : String) : SqlTarget :=
  { default with table := table }

end SqlTarget

inductive SqlParameter where
  | vector (components : List Binary32)
  | number (value : Binary32)
  | integer (value : Nat)
deriving DecidableEq, Repr

/-- A statement and its parameters, in the order `$1`, `$2`, and so on. -/
structure SqlStatement where
  text : String
  parameters : List SqlParameter
deriving DecidableEq, Repr

/-- The components in brackets, separated by commas, each as the shortest decimal that reads
back. -/
def vectorLiteral (components : List Binary32) : String :=
  "[" ++ ",".intercalate (components.map Binary32.plainText) ++ "]"

def greatestInteger : Nat := signedLimit - 1

/-- The bound of a filter, unless every identifier that a column can hold is below it. -/
def IdFilter.boundParameter? : IdFilter → Option Nat
  | .lessThan bound => if bound.toNat ≤ greatestInteger then some bound.toNat else none

namespace Query

def rangeCondition (strategy : ScanStrategy) (target : SqlTarget) : String :=
  match strategy with
  | .indexScan => "ANN_DWithin(" ++ target.vectorColumn ++ ", $1, $2)"
  | .sequentialScan => target.vectorColumn ++ " <-> $1 < $2"

/-- The statement of a query. The vector is `$1`. The threshold or the limit is `$2`, where a
limit is at most the greatest integer. The bound of a filter is `$3`. -/
def toSql (query : Query) (target : SqlTarget) : SqlStatement :=
  let selection := "SELECT " ++ target.idColumn ++ " FROM " ++ target.table
  match query.kind with
  | .range threshold =>
    { text := selection ++ " WHERE " ++ rangeCondition query.strategy target
      parameters := [.vector query.vector, .number threshold] }
  | .topK k filter =>
    let limit := min k greatestInteger
    let order := " ORDER BY " ++ target.vectorColumn ++ " <-> $1 LIMIT $2"
    match filter.bind IdFilter.boundParameter? with
    | some bound =>
      { text := selection ++ " WHERE " ++ target.idColumn ++ " < $3" ++ order
        parameters := [.vector query.vector, .integer limit, .integer bound] }
    | none =>
      { text := selection ++ order
        parameters := [.vector query.vector, .integer limit] }

end Query

end RangeRecall
