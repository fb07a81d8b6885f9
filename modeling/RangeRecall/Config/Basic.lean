import RangeRecall.Error
import RangeRecall.GroundTruth.Basic
import RangeRecall.Query.Workload
import RangeRecall.Text.Characters

/-!
The configuration of a benchmark run.
-/

namespace RangeRecall

structure BenchmarkConfig where
  queryPath : String := ""
  groundTruthPath : String := ""
  target : SqlTarget := SqlTarget.default
  strategies : List ScanStrategy := ScanStrategy.all
  sessionSettings : List (String × String) := [("hnsw.iterative_scan", "relaxed_order")]
  idOffset : IdOffset := IdOffset.default
  progressInterval : Nat := 1000
  perQueryRecall : Bool := false
  resultsDirectory : Option String := none
deriving DecidableEq

namespace BenchmarkConfig

def firstRepeated? (seen : List ScanStrategy) : List ScanStrategy → Option ScanStrategy
  | [] => none
  | strategy :: rest =>
    if strategy ∈ seen then some strategy else firstRepeated? (strategy :: seen) rest

def targetParts (target : SqlTarget) : List (String × String) :=
  [("table", target.table), ("id_column", target.idColumn),
    ("vector_column", target.vectorColumn)]

def validateExecution (config : BenchmarkConfig) : Except ConfigError Unit :=
  if config.strategies = [] then .error .noStrategies
  else match firstRepeated? [] config.strategies with
  | some strategy => .error (.repeatedStrategy strategy)
  | none =>
    if config.sessionSettings.any fun setting => Text.isAllBlank setting.1 then
      .error .unnamedSetting
    else
      match (targetParts config.target).find? fun part => Text.isAllBlank part.2 with
      | some part => .error (.emptyTargetPart part.1)
      | none => .ok ()

def validate (config : BenchmarkConfig) : Except ConfigError Unit :=
  if config.queryPath = "" then .error .noQueryPath
  else if config.groundTruthPath = "" then .error .noGroundTruthPath
  else config.validateExecution

end BenchmarkConfig

end RangeRecall
