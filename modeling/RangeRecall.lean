import RangeRecall.Benchmark.Outcome
import RangeRecall.Benchmark.Run
import RangeRecall.Bytes.Device
import RangeRecall.Bytes.Field
import RangeRecall.Bytes.Word
import RangeRecall.Config.Basic
import RangeRecall.Config.Document
import RangeRecall.Decimal.Shortest
import RangeRecall.Decimal.Text
import RangeRecall.Error
import RangeRecall.Failure
import RangeRecall.Files.Content
import RangeRecall.Files.PathText
import RangeRecall.Files.Tree
import RangeRecall.Grade.Document
import RangeRecall.Grade.Latency
import RangeRecall.Grade.Recall
import RangeRecall.Grade.TopK
import RangeRecall.GroundTruth.Basic
import RangeRecall.GroundTruth.Document
import RangeRecall.GroundTruth.Format
import RangeRecall.Json.Complaint
import RangeRecall.Json.Ignored
import RangeRecall.Json.Number
import RangeRecall.Json.Reader
import RangeRecall.Json.Text
import RangeRecall.Json.Typed
import RangeRecall.Json.Value
import RangeRecall.Numeric.Binary32
import RangeRecall.Numeric.Binary64
import RangeRecall.Numeric.BinaryFormat
import RangeRecall.Proofs.Access
import RangeRecall.Proofs.Benchmark.Admission
import RangeRecall.Proofs.Benchmark.AllOrNothing
import RangeRecall.Proofs.Benchmark.FileRuns
import RangeRecall.Proofs.Benchmark.PerfectRecall
import RangeRecall.Proofs.Benchmark.SavedOutcome
import RangeRecall.Proofs.Benchmark.SavedRuns
import RangeRecall.Proofs.Benchmark.StoreCalls
import RangeRecall.Proofs.Bytes.Checksum
import RangeRecall.Proofs.Bytes.Decoder
import RangeRecall.Proofs.Bytes.Delivery
import RangeRecall.Proofs.Bytes.Device
import RangeRecall.Proofs.Bytes.FieldCodec
import RangeRecall.Proofs.Bytes.TornWrite
import RangeRecall.Proofs.Decimal.PlainText
import RangeRecall.Proofs.Decimal.Positional
import RangeRecall.Proofs.Decimal.Separation
import RangeRecall.Proofs.Decimal.Shortest
import RangeRecall.Proofs.Failure
import RangeRecall.Proofs.Files.Content
import RangeRecall.Proofs.Files.Inputs
import RangeRecall.Proofs.Files.Tree
import RangeRecall.Proofs.Grade.Finite
import RangeRecall.Proofs.Grade.LatencyOrder
import RangeRecall.Proofs.Grade.Percentiles
import RangeRecall.Proofs.Grade.Recall
import RangeRecall.Proofs.Grade.ReportDocument
import RangeRecall.Proofs.Grade.SetRecall
import RangeRecall.Proofs.Grade.ShiftOverflow
import RangeRecall.Proofs.Grade.TopK
import RangeRecall.Proofs.Grade.TopKCounts
import RangeRecall.Proofs.Grade.UnitInterval
import RangeRecall.Proofs.GroundTruth.Encoding
import RangeRecall.Proofs.GroundTruth.NearRows
import RangeRecall.Proofs.GroundTruth.Parts
import RangeRecall.Proofs.GroundTruth.Reading
import RangeRecall.Proofs.GroundTruth.RowLists
import RangeRecall.Proofs.GroundTruth.Rows
import RangeRecall.Proofs.GroundTruth.Scan
import RangeRecall.Proofs.GroundTruth.StoreSearch
import RangeRecall.Proofs.GroundTruth.Truncation
import RangeRecall.Proofs.Json.Bytes
import RangeRecall.Proofs.Json.Documents
import RangeRecall.Proofs.Json.NumberText
import RangeRecall.Proofs.Json.Reads
import RangeRecall.Proofs.Json.RealNumber
import RangeRecall.Proofs.Json.ScaledNumber
import RangeRecall.Proofs.Json.SingleBack
import RangeRecall.Proofs.Numeric.Comparison
import RangeRecall.Proofs.Numeric.DoubleArithmetic
import RangeRecall.Proofs.Numeric.DoubleBounds
import RangeRecall.Proofs.Numeric.MonotoneArithmetic
import RangeRecall.Proofs.Numeric.Narrowing
import RangeRecall.Proofs.Numeric.Packing
import RangeRecall.Proofs.Numeric.RoundedArithmetic
import RangeRecall.Proofs.Numeric.Rounding
import RangeRecall.Proofs.Numeric.SignedDoubles
import RangeRecall.Proofs.Numeric.SinglePatterns
import RangeRecall.Proofs.Query.Placeholders
import RangeRecall.Proofs.Query.VectorLiteral
import RangeRecall.Proofs.Result.Container
import RangeRecall.Proofs.Result.Header
import RangeRecall.Proofs.Result.Payload
import RangeRecall.Proofs.Run.Endings
import RangeRecall.Proofs.Run.OneStrategy
import RangeRecall.Proofs.Run.TopKWorkload
import RangeRecall.Proofs.Store.Activity
import RangeRecall.Proofs.Store.AnswerSize
import RangeRecall.Proofs.Store.CallPlan
import RangeRecall.Proofs.Store.Connection
import RangeRecall.Proofs.Store.Faults
import RangeRecall.Proofs.Store.FirstFailure
import RangeRecall.Proofs.Store.History
import RangeRecall.Proofs.Store.MemoryHost
import RangeRecall.Proofs.Store.RangeTopK
import RangeRecall.Proofs.Store.SessionEnd
import RangeRecall.Proofs.Store.TopK
import RangeRecall.Proofs.Store.Unmeasured
import RangeRecall.Proofs.Store.WorstFirst
import RangeRecall.Proofs.Synthetic.Shapes
import RangeRecall.Proofs.Synthetic.Stream
import RangeRecall.Proofs.Vector.Encoding
import RangeRecall.Proofs.Vector.RowMajor
import RangeRecall.Proofs.Vector.Rows
import RangeRecall.Query.Basic
import RangeRecall.Query.Document
import RangeRecall.Query.Workload
import RangeRecall.Result.Container
import RangeRecall.Result.Payload
import RangeRecall.Run.Basic
import RangeRecall.Run.Document
import RangeRecall.Run.Executor
import RangeRecall.Store.Backend
import RangeRecall.Store.Memory
import RangeRecall.Store.Scripted
import RangeRecall.Store.Session
import RangeRecall.Store.WorstFirst
import RangeRecall.Synthetic.Dataset
import RangeRecall.Synthetic.Random
import RangeRecall.Text.Characters
import RangeRecall.Text.Escapes
import RangeRecall.Vector.Batch
import RangeRecall.Vector.BatchFormat
