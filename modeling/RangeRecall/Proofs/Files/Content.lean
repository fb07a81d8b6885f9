import RangeRecall.Files.Content
import RangeRecall.Proofs.Files.Tree
import RangeRecall.Proofs.Result.Container

/-! Results in files, read back. A saved run or report is loaded as it was saved, and it is refused
where a result of the other kind is asked for. -/

namespace RangeRecall

namespace FileTree

variable {tree next : FileTree} {path : String} {content : List UInt8}

theorem save_eq_ok_iff :
    tree.save path content = .ok next ↔ tree.write path content = .ok next := by
  rw [save]
  cases tree.write path content with
  | error error => exact iff_of_false nofun nofun
  | ok reached =>
      constructor <;>
      · intro same
        cases same
        rfl

theorem load_eq_ok_iff : tree.load path = .ok content ↔ tree.read path = .ok content := by
  rw [load]
  cases tree.read path with
  | error error => exact iff_of_false nofun nofun
  | ok held =>
      constructor <;>
      · intro same
        cases same
        rfl

theorem load_save (saved : tree.save path content = .ok next) : next.load path = .ok content :=
  load_eq_ok_iff.mpr (read_write (save_eq_ok_iff.mp saved))

theorem loadRun_eq (held : tree.load path = .ok content) :
    tree.loadRun path = ResultFile.toRun content := by
  rw [loadRun, held]
  rfl

theorem loadReport_eq (held : tree.load path = .ok content) :
    tree.loadReport path = ResultFile.toReport content := by
  rw [loadReport, held]
  rfl

structure HoldsRun (tree : FileTree) (path : String) (run : ExecutionRun) : Prop where
  run : tree.loadRun path = .ok run
  notReport : tree.loadReport path = .error (.format (.wrongKind .report .run))

structure HoldsReport (tree : FileTree) (path : String) (report : RecallReport) : Prop where
  report : tree.loadReport path = .ok report
  notRun : tree.loadRun path = .error (.format (.wrongKind .run .report))

theorem holdsRun_of_load {run : ExecutionRun} (inWords : run.InWords)
    (held : tree.load path = .ok (ResultFile.ofRun run)) : tree.HoldsRun path run where
  run := by
    rw [loadRun_eq held, ResultFile.toRun_eq]
    exact ResultFile.read_ofPayload (Payload.run_takes inWords)
  notReport := by
    rw [loadReport_eq held, ResultFile.toReport_eq]
    exact ResultFile.read_of_ne nofun

theorem holdsReport_of_load {report : RecallReport} (inWords : report.InWords)
    (held : tree.load path = .ok (ResultFile.ofReport report)) :
    tree.HoldsReport path report where
  report := by
    rw [loadReport_eq held, ResultFile.toReport_eq]
    exact ResultFile.read_ofPayload (Payload.report_takes inWords)
  notRun := by
    rw [loadRun_eq held, ResultFile.toRun_eq]
    exact ResultFile.read_of_ne nofun

/-- Runs, reports and headers come back exactly as they were written: runs and reports from bytes
and from files, each as its own kind only. -/
theorem results_round_trip :
    (∀ run : ExecutionRun, run.InWords →
      ResultFile.toRun (ResultFile.ofRun run) = .ok run ∧
      ∀ tree path next, saveRun tree path run = .ok next → next.HoldsRun path run) ∧
    (∀ report : RecallReport, report.InWords →
      ResultFile.toReport (ResultFile.ofReport report) = .ok report ∧
      ∀ tree path next, saveReport tree path report = .ok next →
        next.HoldsReport path report) ∧
    (∀ header : ResultHeader, header.magic = ResultHeader.fileMagic →
      ResultHeader.decode header.encode = .ok header) ∧
    ∀ bytes header, ResultHeader.decode bytes = .ok header →
      header.encode = bytes.take ResultHeader.size := by
  refine ⟨fun run inWords => ⟨?_, ?_⟩, fun report inWords => ⟨?_, ?_⟩, ?_, ?_⟩
  · rw [ResultFile.toRun_eq]
    exact ResultFile.read_ofPayload (Payload.run_takes inWords)
  · intro tree path next saved
    exact holdsRun_of_load inWords (load_save saved)
  · rw [ResultFile.toReport_eq]
    exact ResultFile.read_ofPayload (Payload.report_takes inWords)
  · intro tree path next saved
    exact holdsReport_of_load inWords (load_save saved)
  · intro header right
    exact ResultHeader.decode_encode right
  · intro bytes header accepted
    exact ResultHeader.encode_of_decode accepted

def twoRecalls : RecallReport where
  strategy := .indexScan
  queryCount := 2
  aggregateRecall := ⟨0x7ff8000000000001⟩
  queriesPerSecond := Binary64.zero
  wallClock := Duration.zero
  latency := LatencyStats.empty
  perQueryRecall := some [Binary64.zero, ⟨0x7ff8000000000001⟩]

theorem twoRecalls_inWords : twoRecalls.InWords where
  queryCount := by decide
  latencyCount := by decide
  recalls := by
    intro recalls kept
    cases kept
    decide

theorem samples_round_trip :
    (∃ next, saveRun {} "run.rbr" ResultFile.oneRecord = .ok next ∧
      next.HoldsRun "run.rbr" ResultFile.oneRecord) ∧
    (∃ next, saveReport {} "report.rbr" twoRecalls = .ok next ∧
      next.HoldsReport "report.rbr" twoRecalls) ∧
    ResultHeader.decode (ResultHeader.new .report 7).encode =
      .ok (ResultHeader.new .report 7) := by
  have saves (name : String) (located : locate {} name = .ok ((Place.start false).entry name))
      (noSlash : PathText.endsInSlash name = false) (content : List UInt8) :
      save {} name content =
        .ok (put {} ((Place.start false).entry name) (.file content)) :=
    save_eq_ok_iff.mpr (write_eq_ok_iff.mpr ⟨_, located, noSlash, nofun, rfl⟩)
  have savedRun := saves "run.rbr" (by decide +kernel) (by decide)
    (ResultFile.ofRun ResultFile.oneRecord)
  have savedReport := saves "report.rbr" (by decide +kernel) (by decide)
    (ResultFile.ofReport twoRecalls)
  exact ⟨⟨_, savedRun, (results_round_trip.1 _ ResultFile.oneRecord_inWords).2 _ _ _ savedRun⟩,
    ⟨_, savedReport, (results_round_trip.2.1 _ twoRecalls_inWords).2 _ _ _ savedReport⟩,
    results_round_trip.2.2.1 _ rfl⟩

end FileTree

end RangeRecall
