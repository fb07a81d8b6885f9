import RangeRecall.Grade.Document
import RangeRecall.Proofs.Grade.Finite
import RangeRecall.Proofs.Json.RealNumber
import RangeRecall.Proofs.Result.Payload

/-! Reports in documents. A report with bounded statistics is read as a report in which only the
doubles may differ. -/

namespace RangeRecall

open Json

theorem Duration.document_reads (duration : Duration) :
    Reads (Document.reader : Reader Duration) (Document.toValue duration) duration := by
  have complete : Duration.form.complete
      { seconds := some duration.seconds, nanos := some duration.nanos } = .ok duration := by
    simp only [Duration.form]
    refine Failure.bind_eq_ok_iff.mpr ⟨_, rfl, Failure.bind_eq_ok_iff.mpr ⟨_, rfl, ?_⟩⟩
    rw [duration.ofParts?_parts]
    rfl
  refine record_reads (.cons (by decide +kernel) rfl rfl
    (store_reads (natural_reads duration.seconds_lt (by decide)) _) ?_) complete
  refine .cons (by decide +kernel) rfl rfl
    (store_reads (natural_reads (duration.nanos_lt.trans (by decide)) (by decide)) _) ?_
  exact .nil _

theorem ScanStrategy.document_reads (strategy : ScanStrategy) :
    Reads (Document.reader : Reader ScanStrategy) (Document.toValue strategy) strategy := by
  cases strategy with
  | indexScan => exact choice_reads (by decide +kernel) rfl rfl
  | sequentialScan => exact choice_reads (by decide +kernel) rfl rfl

theorem LatencyStats.document_reads {stats : LatencyStats} (bounded : stats.IsBounded) :
    ∃ read : LatencyStats, read.count = stats.count ∧
      Reads (Document.reader : Reader LatencyStats) (Document.toValue stats) read := by
  obtain ⟨mean, meanReads⟩ := double_reads bounded.mean
  obtain ⟨p50, p50Reads⟩ := double_reads bounded.p50
  obtain ⟨p95, p95Reads⟩ := double_reads bounded.p95
  obtain ⟨p99, p99Reads⟩ := double_reads bounded.p99
  obtain ⟨least, leastReads⟩ := double_reads bounded.least
  obtain ⟨greatest, greatestReads⟩ := double_reads bounded.greatest
  refine ⟨{ count := stats.count, mean, p50, p95, p99, least, greatest }, rfl, ?_⟩
  have complete : LatencyStats.form.complete
      { count := some stats.count, mean := some mean, p50 := some p50, p95 := some p95
        p99 := some p99, least := some least, greatest := some greatest } =
      .ok { count := stats.count, mean, p50, p95, p99, least, greatest } := rfl
  refine record_reads (.cons (by decide +kernel) rfl rfl
    (store_reads (natural_reads bounded.count (by decide)) _) ?_) complete
  refine .cons (by decide +kernel) rfl rfl (store_reads meanReads _) ?_
  refine .cons (by decide +kernel) rfl rfl (store_reads p50Reads _) ?_
  refine .cons (by decide +kernel) rfl rfl (store_reads p95Reads _) ?_
  refine .cons (by decide +kernel) rfl rfl (store_reads p99Reads _) ?_
  refine .cons (by decide +kernel) rfl rfl (store_reads leastReads _) ?_
  refine .cons (by decide +kernel) rfl rfl (store_reads greatestReads _) ?_
  exact .nil _

theorem doubles_takenAs {numbers : List Binary64}
    (bounded : ∀ number ∈ numbers, number.AtMost 200) :
    ∃ values, TakenAs Reader.double (numbers.map .double) values := by
  induction numbers with
  | nil => exact ⟨[], .nil⟩
  | cons first rest ih =>
      obtain ⟨value, reads⟩ := double_reads (bounded first List.mem_cons_self)
      obtain ⟨values, others⟩ := ih fun number mem => bounded number (List.mem_cons_of_mem _ mem)
      have begins := double_begins (bounded first List.mem_cons_self).measure
      exact ⟨value :: values, .cons reads begins (by decide) others⟩

namespace RecallReport

variable {report : RecallReport}

theorem perQueryRecall_reads (bounded : report.IsBounded) :
    ∃ recalls, Reads (Reader.optional (Reader.list Reader.double))
      (match report.perQueryRecall with
        | none => .null
        | some recalls => .list (recalls.map .double)) recalls := by
  rcases kept : report.perQueryRecall with _ | recalls
  · exact ⟨none, optional_reads_null _⟩
  · obtain ⟨values, taken⟩ := doubles_takenAs (bounded.perQueryRecall recalls kept)
    exact ⟨some values, optional_reads (list_reads taken) (list_begins _) (by decide)⟩

theorem document_reads (bounded : report.IsBounded) :
    ∃ read : RecallReport, read.strategy = report.strategy ∧
      read.queryCount = report.queryCount ∧ read.wallClock = report.wallClock ∧
      Reads (Document.reader : Reader RecallReport) (Document.toValue report) read := by
  obtain ⟨aggregateRecall, aggregateReads⟩ := double_reads bounded.aggregateRecall
  obtain ⟨queriesPerSecond, rateReads⟩ := double_reads bounded.queriesPerSecond
  obtain ⟨latency, -, latencyReads⟩ := LatencyStats.document_reads bounded.latency
  obtain ⟨perQueryRecall, recallsRead⟩ := perQueryRecall_reads bounded
  refine ⟨{ report with aggregateRecall, queriesPerSecond, latency, perQueryRecall },
    rfl, rfl, rfl, ?_⟩
  have complete : form.complete
      { strategy := some report.strategy, queryCount := some report.queryCount
        aggregateRecall := some aggregateRecall, queriesPerSecond := some queriesPerSecond
        wallClock := some report.wallClock, latency := some latency
        perQueryRecall := some perQueryRecall } =
      .ok { report with aggregateRecall, queriesPerSecond, latency, perQueryRecall } := rfl
  refine record_reads (.cons (by decide +kernel) rfl rfl
    (store_reads report.strategy.document_reads _) ?_) complete
  refine .cons (by decide +kernel) rfl rfl
    (store_reads (natural_reads bounded.queryCount (by decide)) _) ?_
  refine .cons (by decide +kernel) rfl rfl (store_reads aggregateReads _) ?_
  refine .cons (by decide +kernel) rfl rfl (store_reads rateReads _) ?_
  refine .cons (by decide +kernel) rfl rfl (store_reads report.wallClock.document_reads _) ?_
  refine .cons (by decide +kernel) rfl rfl (store_reads latencyReads _) ?_
  -- The field may be absent, but it is stored like the others.
  have recallsStored (draft : Draft) := @store_reads Draft _ "per_query_recall" _
    Draft.perQueryRecall (fun draft value => { draft with perQueryRecall := some value }) _ _
    recallsRead draft
  refine .cons (by decide +kernel) rfl rfl (recallsStored _) ?_
  exact .nil _

end RecallReport

end RangeRecall
