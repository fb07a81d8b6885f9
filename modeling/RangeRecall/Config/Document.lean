import RangeRecall.Config.Basic
import RangeRecall.Files.Content
import RangeRecall.GroundTruth.Document
import RangeRecall.Query.Document

/-!
The JSON form of a configuration. Every field may be left out and then has its
default.
-/

namespace RangeRecall

open Json

namespace BenchmarkConfig

structure Draft where
  queryPath : Option String := none
  groundTruthPath : Option String := none
  target : Option SqlTarget := none
  strategies : Option (List ScanStrategy) := none
  sessionSettings : Option (List (String × String)) := none
  idOffset : Option IdOffset := none
  progressInterval : Option Nat := none
  perQueryRecall : Option Bool := none
  resultsDirectory : Option (Option String) := none

/-- A field that a list of values may end before. -/
def optionalField (name : String) (reader : Reader α) (getField : δ → Option α)
    (setField : δ → α → δ) : RecordField δ :=
  { RecordField.ofReader name reader getField setField with optional := true }

def fill (draft : Draft) : BenchmarkConfig :=
  let default : BenchmarkConfig := {}
  { queryPath := draft.queryPath.getD default.queryPath
    groundTruthPath := draft.groundTruthPath.getD default.groundTruthPath
    target := draft.target.getD default.target
    strategies := draft.strategies.getD default.strategies
    sessionSettings := draft.sessionSettings.getD default.sessionSettings
    idOffset := draft.idOffset.getD default.idOffset
    progressInterval := draft.progressInterval.getD default.progressInterval
    perQueryRecall := draft.perQueryRecall.getD default.perQueryRecall
    resultsDirectory := draft.resultsDirectory.getD default.resultsDirectory }

def form : RecordForm Draft BenchmarkConfig where
  expected := "struct BenchmarkConfig"
  expectedLength := "struct BenchmarkConfig with 9 elements"
  fields := [
    optionalField "query_path" (Reader.text "path string") Draft.queryPath
      fun draft value => { draft with queryPath := some value },
    optionalField "ground_truth_path" (Reader.text "path string") Draft.groundTruthPath
      fun draft value => { draft with groundTruthPath := some value },
    optionalField "target" Document.reader Draft.target
      fun draft value => { draft with target := some value },
    optionalField "strategies" (Reader.list Document.reader) Draft.strategies
      fun draft value => { draft with strategies := some value },
    optionalField "session_settings"
      (Reader.list (Reader.pair (Reader.text "a string") (Reader.text "a string")))
      Draft.sessionSettings fun draft value => { draft with sessionSettings := some value },
    optionalField "id_offset" Document.reader Draft.idOffset
      fun draft value => { draft with idOffset := some value },
    optionalField "progress_interval" (Reader.natural "usize" wordLimit) Draft.progressInterval
      fun draft value => { draft with progressInterval := some value },
    optionalField "per_query_recall" Reader.boolean Draft.perQueryRecall
      fun draft value => { draft with perQueryRecall := some value },
    optionalField "results_dir" (Reader.optional (Reader.text "path string"))
      Draft.resultsDirectory fun draft value => { draft with resultsDirectory := some value }]
  blank := {}
  complete draft := .ok (fill draft)

instance : Document BenchmarkConfig where
  toValue config := .object [
    ("query_path", .text config.queryPath),
    ("ground_truth_path", .text config.groundTruthPath),
    ("target", Document.toValue config.target),
    ("strategies", .list (config.strategies.map Document.toValue)),
    ("session_settings", .list (config.sessionSettings.map fun setting =>
      .list [.text setting.1, .text setting.2])),
    ("id_offset", Document.toValue config.idOffset),
    ("progress_interval", .integer config.progressInterval),
    ("per_query_recall", .boolean config.perQueryRecall),
    ("results_dir", match config.resultsDirectory with
      | none => .null
      | some directory => .text directory)]
  reader := Reader.record form

def load (tree : FileTree) (path : String) : Except Error BenchmarkConfig := do
  let content ← tree.load path
  let config ← (Json.parse content).mapError fun complaint =>
    .invalidConfig (.unreadable path complaint)
  config.validate.mapError .invalidConfig
  return config

end BenchmarkConfig

end RangeRecall
