import RangeRecall.Files.Tree
import RangeRecall.GroundTruth.Format
import RangeRecall.Json.Typed
import RangeRecall.Result.Container
import RangeRecall.Vector.BatchFormat

/-!
The files that the harness keeps in a tree: vector batches, ground truths,
results in their binary form, and documents in JSON. A file that is read must
hold what its reader expects from its first byte on.
-/

namespace RangeRecall

namespace FileTree

def load (tree : FileTree) (path : String) : Except Error (List UInt8) :=
  (tree.read path).mapError .device

def save (tree : FileTree) (path : String) (content : List UInt8) : Except Error FileTree :=
  (tree.write path content).mapError .device

/-- Saves what a writer writes. A writer that fails leaves a file with what it wrote before. -/
def saveWritten (tree : FileTree) (path : String) (writer : Sink → Except Error Unit × Sink) :
    Except Error Unit × FileTree :=
  let (result, sink) := writer {}
  match tree.save path sink.contents with
  | .error error => (.error error, tree)
  | .ok next => (result, next)

def prepareDirectory (tree : FileTree) (path : String) : Except Error Unit × FileTree :=
  let (result, next) := tree.createDirectories path
  (result.mapError .device, next)

/-! ## Data -/

def loadBatch (tree : FileTree) (path : String) (requireNonEmpty : Bool) :
    Except Error VectorBatch := do
  let (batch, _) ← VectorBatch.read (.ofBytes (← tree.load path)) requireNonEmpty
  return batch

def saveBatch (tree : FileTree) (path : String) (batch : VectorBatch) :
    Except Error Unit × FileTree :=
  tree.saveWritten path batch.write

def loadGroundTruth (tree : FileTree) (path : String) : Except Error GroundTruth := do
  let (truth, _) ← GroundTruth.read (.ofBytes (← tree.load path))
  return truth

def saveGroundTruth (tree : FileTree) (path : String) (truth : GroundTruth) :
    Except Error Unit × FileTree :=
  tree.saveWritten path truth.write

/-! ## Results -/

def loadRun (tree : FileTree) (path : String) : Except Error ExecutionRun := do
  ResultFile.toRun (← tree.load path)

def saveRun (tree : FileTree) (path : String) (run : ExecutionRun) : Except Error FileTree :=
  tree.save path (ResultFile.ofRun run)

def loadReport (tree : FileTree) (path : String) : Except Error RecallReport := do
  ResultFile.toReport (← tree.load path)

def saveReport (tree : FileTree) (path : String) (report : RecallReport) :
    Except Error FileTree :=
  tree.save path (ResultFile.ofReport report)

/-! ## Documents -/

def loadDocument [Json.Document α] (tree : FileTree) (path : String) : Except Error α := do
  let content ← tree.load path
  (Json.parse content).mapError fun complaint => .serialization (.json complaint)

def saveDocument [Json.Document α] (tree : FileTree) (path : String) (value : α) :
    Except Error FileTree :=
  tree.save path (Json.render value)

end FileTree

end RangeRecall
