import RangeRecall.Error
import RangeRecall.Json.Typed
import RangeRecall.Query.Workload

/-!
The JSON forms of strategies, query kinds and statement targets.
-/

namespace RangeRecall

open Json

namespace ScanStrategy

/-- The alternative that a strategy is read from. Its content, if it is given one, is null. -/
def variant (strategy : ScanStrategy) : Variant ScanStrategy where
  name := strategy.name
  bare := .ok strategy
  content := do Reader.null; return strategy

instance : Document ScanStrategy where
  toValue strategy := .text strategy.name
  reader := Reader.choice [variant .indexScan, variant .sequentialScan]

end ScanStrategy

instance : Document IdFilter where
  toValue
    | .lessThan bound => .object [("less_than", .integer bound.toNat)]
  reader := Reader.choice [{
    name := "less_than"
    bare := .error (.invalidType .bareVariant "newtype variant")
    content := do return .lessThan (UInt64.ofNat (← Reader.natural "u64" wordLimit)) }]

def IdFilter.optionValue : Option IdFilter → Value
  | none => .null
  | some filter => Document.toValue filter

namespace QueryKind

structure RangeDraft where
  threshold : Option Binary32 := none

def rangeForm : RecordForm RangeDraft QueryKind where
  expected := "struct variant QueryKind::Range"
  expectedLength := "struct variant QueryKind::Range with 1 element"
  fields := [
    .ofReader "threshold" Reader.single RangeDraft.threshold
      fun draft value => { draft with threshold := some value }]
  blank := {}
  complete draft := do return .range (← required "threshold" draft.threshold)

structure TopKDraft where
  k : Option Nat := none
  filter : Option (Option IdFilter) := none

def topKForm : RecordForm TopKDraft QueryKind where
  expected := "struct variant QueryKind::TopK"
  expectedLength := "struct variant QueryKind::TopK with 2 elements"
  fields := [
    .ofReader "k" (Reader.natural "usize" wordLimit) TopKDraft.k
      fun draft value => { draft with k := some value },
    .ofReader "filter" (Reader.optional Document.reader) TopKDraft.filter
      fun draft value => { draft with filter := some value }]
  blank := {}
  complete draft := do return .topK (← required "k" draft.k) (draft.filter.getD none)

instance : Document QueryKind where
  toValue
    | .range threshold => .object [("range", .object [("threshold", .single threshold)])]
    | .topK k filter =>
      .object [("top_k", .object [("k", .integer k), ("filter", IdFilter.optionValue filter)])]
  reader := Reader.choice [
    { name := "range"
      bare := .error (.invalidType .bareVariant "struct variant")
      content := Reader.record rangeForm },
    { name := "top_k"
      bare := .error (.invalidType .bareVariant "struct variant")
      content := Reader.record topKForm }]

end QueryKind

namespace SqlTarget

structure Draft where
  table : Option String := none
  idColumn : Option String := none
  vectorColumn : Option String := none

def form : RecordForm Draft SqlTarget where
  expected := "struct SqlTarget"
  expectedLength := "struct SqlTarget with 3 elements"
  fields := [
    .ofReader "table" (Reader.text "a string") Draft.table
      fun draft value => { draft with table := some value },
    .ofReader "id_column" (Reader.text "a string") Draft.idColumn
      fun draft value => { draft with idColumn := some value },
    .ofReader "vector_column" (Reader.text "a string") Draft.vectorColumn
      fun draft value => { draft with vectorColumn := some value }]
  blank := {}
  complete draft := do
    let table ← required "table" draft.table
    let idColumn ← required "id_column" draft.idColumn
    let vectorColumn ← required "vector_column" draft.vectorColumn
    return { table, idColumn, vectorColumn }

instance : Document SqlTarget where
  toValue target := .object [
    ("table", .text target.table),
    ("id_column", .text target.idColumn),
    ("vector_column", .text target.vectorColumn)]
  reader := Reader.record form

end SqlTarget

end RangeRecall
