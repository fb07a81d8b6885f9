import RangeRecall.Result.Payload

/-! Payloads of result files, read back. A decoder takes exactly the bytes that a value was encoded
to, whatever follows them, and what it takes never depends on what follows. A payload therefore
decodes to the value that it was made from, and no part of it that stops short decodes at all. -/

namespace RangeRecall

theorem Duration.ofParts?_parts (duration : Duration) :
    ofParts? duration.seconds duration.nanos = some duration := by
  have nanos := duration.nanos_lt
  have seconds : (duration.seconds * nanosPerSecond + duration.nanos) / 1000000000 =
      duration.seconds := by
    simp only [nanosPerSecond]
    omega
  have rest : (duration.seconds * nanosPerSecond + duration.nanos) % 1000000000 =
      duration.nanos := by
    simp only [nanosPerSecond]
    omega
  have fits := duration.seconds_lt
  rw [ofParts?, ofNanos?]
  simp only [seconds, rest, fits, dite_true]

namespace Payload

/-- From every input that begins with the bytes, the decoder takes exactly these bytes and answers
with the value. -/
def Takes (decode : Decoder α) (bytes : List UInt8) (value : α) : Prop :=
  ∀ rest, decode (bytes ++ rest) = .ok (value, rest)

/-- What the decoder takes off an input, it takes off every input that begins like this one. -/
def Steady (decode : Decoder α) : Prop :=
  ∀ input value rest, decode input = .ok (value, rest) →
    ∃ taken, input = taken ++ rest ∧ Takes decode taken value

/-! ## Decoders one after another -/

section

variable {first : Decoder α} {second : α × List UInt8 → Except PayloadError (β × List UInt8)}
  {bytes others : List UInt8} {value : α}

theorem Takes.pure (value : α) : Takes (fun input => .ok (value, input)) [] value :=
  fun _ => rfl

theorem Takes.bind {result : β} (firstTakes : Takes first bytes value)
    (secondTakes : Takes (fun rest => second (value, rest)) others result) :
    Takes (fun input => first input >>= second) (bytes ++ others) result := by
  intro rest
  rw [List.append_assoc]
  change (first (bytes ++ (others ++ rest)) >>= second) = _
  rw [firstTakes]
  exact secondTakes rest

theorem Takes.last {result : β} (takes : Takes first bytes value)
    (answers : ∀ rest, second (value, rest) = .ok (result, rest)) :
    Takes (fun input => first input >>= second) bytes result := by
  intro rest
  change (first (bytes ++ rest) >>= second) = _
  rw [takes]
  exact answers rest

theorem Steady.pure (value : α) : Steady fun input => .ok (value, input) := by
  intro input other rest decoded
  cases decoded
  exact ⟨[], rfl, .pure value⟩

theorem Steady.throw (error : PayloadError) : Steady (fun _ => .error error : Decoder α) := by
  intro input value rest decoded
  cases decoded

theorem Steady.bind (firstSteady : Steady first)
    (secondSteady : ∀ value, Steady fun rest => second (value, rest)) :
    Steady fun input => first input >>= second := by
  intro input result rest decoded
  change (first input >>= second) = _ at decoded
  rcases reply : first input with error | ⟨value, middle⟩
  · rw [reply] at decoded
    cases decoded
  · rw [reply] at decoded
    rcases firstSteady input value middle reply with ⟨taken, split, firstTakes⟩
    rcases secondSteady value middle result rest decoded with ⟨later, laterSplit, secondTakes⟩
    refine ⟨taken ++ later, ?_, firstTakes.bind secondTakes⟩
    rw [split, laterSplit, List.append_assoc]

theorem Takes.error_of_short {decode : Decoder α} (takes : Takes decode bytes value)
    (steady : Steady decode) {count : Nat} (short : count < bytes.length) :
    ∃ error, decode (bytes.take count) = .error error := by
  rcases reply : decode (bytes.take count) with error | ⟨other, rest⟩
  · exact ⟨error, rfl⟩
  · -- The same bytes would be taken off the whole, which leaves nothing.
    rcases steady _ other rest reply with ⟨taken, split, takesOther⟩
    have whole : bytes = taken ++ (rest ++ bytes.drop count) := by
      rw [← List.append_assoc, ← split, List.take_append_drop]
    have empty : decode bytes = .ok (value, []) := by
      have all := takes []
      rwa [List.append_nil] at all
    rw [whole, takesOther] at empty
    have nothing : bytes.drop count = [] :=
      (List.append_eq_nil_iff.mp (congrArg Prod.snd (Except.ok.inj empty))).2
    rw [List.drop_eq_nil_iff] at nothing
    omega

end

/-! ## Numbers -/

theorem number_takes {width number : Nat} (fits : number < LittleEndian.capacity width) :
    Takes (decodeNumber width) (LittleEndian.encode width number) number := by
  intro rest
  have size := LittleEndian.length_encode width number
  have enough : ¬(LittleEndian.encode width number ++ rest).length < width := by
    rw [List.length_append, size]
    omega
  rw [decodeNumber, if_neg enough, List.take_left' size, List.drop_left' size,
    LittleEndian.decode_encode fits]

theorem number_steady (width : Nat) : Steady (decodeNumber width) := by
  intro input number rest decoded
  by_cases short : input.length < width
  · rw [decodeNumber, if_pos short] at decoded
    cases decoded
  · rw [decodeNumber, if_neg short] at decoded
    cases decoded
    have size : (input.take width).length = width := by
      rw [List.length_take]
      omega
    have bound := LittleEndian.decode_lt (input.take width)
    have encoded := LittleEndian.encode_decode (input.take width)
    rw [size] at bound encoded
    refine ⟨input.take width, (List.take_append_drop width input).symm, ?_⟩
    have takes := number_takes bound
    rwa [encoded] at takes

theorem double_takes (number : Binary64) : Takes decodeDouble (encodeDouble number) number := by
  have fits : number.bits.toNat < LittleEndian.capacity 8 := number.bits.toNat_lt
  refine .last (number_takes fits) fun rest => ?_
  dsimp only
  rw [UInt64.ofNat_toNat]
  rfl

theorem double_steady : Steady decodeDouble :=
  .bind (number_steady 8) fun _ => .pure _

theorem id_takes (id : UInt64) : Takes decodeId (encodeId id) id := by
  have fits : id.toNat < LittleEndian.capacity 8 := id.toNat_lt
  refine .last (number_takes fits) fun rest => ?_
  dsimp only
  rw [UInt64.ofNat_toNat]
  rfl

theorem id_steady : Steady decodeId :=
  .bind (number_steady 8) fun _ => .pure _

/-! ## Lists and optional values -/

section

variable {encodeItem : α → List UInt8} {decodeItem : Decoder α}

theorem items_takes {items : List α}
    (takes : ∀ item ∈ items, Takes decodeItem (encodeItem item) item) :
    Takes (decodeItems decodeItem items.length) (items.flatMap encodeItem) items := by
  induction items with
  | nil => exact .pure []
  | cons item rest induction =>
      have others := induction fun other member => takes other (List.mem_cons_of_mem _ member)
      refine .bind (takes item List.mem_cons_self) ?_
      exact .last others fun _ => rfl

theorem items_steady (steady : Steady decodeItem) (count : Nat) :
    Steady (decodeItems decodeItem count) := by
  induction count with
  | zero => exact .pure []
  | succ count induction => exact .bind steady fun _ => .bind induction fun _ => .pure _

theorem list_takes {items : List α} (fits : items.length < wordLimit)
    (takes : ∀ item ∈ items, Takes decodeItem (encodeItem item) item) :
    Takes (decodeList decodeItem) (encodeList encodeItem items) items :=
  .bind (number_takes fits) (items_takes takes)

theorem list_steady (steady : Steady decodeItem) : Steady (decodeList decodeItem) :=
  .bind (number_steady 8) (items_steady steady)

theorem option_takes {value : Option α}
    (takes : ∀ item, value = some item → Takes decodeItem (encodeItem item) item) :
    Takes (decodeOption decodeItem) (encodeOption encodeItem value) value := by
  cases value with
  | none => exact .last (number_takes (by decide : 0 < LittleEndian.capacity 1)) fun _ => rfl
  | some item =>
      refine .bind (number_takes (by decide : 1 < LittleEndian.capacity 1)) ?_
      exact .last (takes item rfl) fun _ => rfl

theorem option_steady (steady : Steady decodeItem) : Steady (decodeOption decodeItem) := by
  refine .bind (number_steady 1) fun tag => ?_
  match tag with
  | 0 => exact .pure none
  | 1 => exact .bind steady fun _ => .pure _
  | tag + 2 => exact .throw _

end

/-! ## Strategies and durations -/

theorem strategy_takes (strategy : ScanStrategy) :
    Takes decodeStrategy (encodeStrategy strategy) strategy := by
  cases strategy with
  | indexScan => exact .last (number_takes (by decide : 0 < LittleEndian.capacity 4)) fun _ => rfl
  | sequentialScan =>
      exact .last (number_takes (by decide : 1 < LittleEndian.capacity 4)) fun _ => rfl

theorem strategy_steady : Steady decodeStrategy := by
  refine .bind (number_steady 4) fun index => ?_
  match index with
  | 0 => exact .pure _
  | 1 => exact .pure _
  | index + 2 => exact .throw _

def decodeJoined (join : Nat → Nat → Option Duration) : Decoder Duration := fun bytes => do
  let (seconds, afterSeconds) ← decodeNumber 8 bytes
  let (nanos, rest) ← decodeNumber 4 afterSeconds
  match join seconds nanos with
  | some duration => return (duration, rest)
  | none => throw .durationOverflow

theorem joined_takes {join : Nat → Nat → Option Duration} {duration : Duration}
    (parts : join duration.seconds duration.nanos = some duration) :
    Takes (decodeJoined join) (encodeDuration duration) duration := by
  have seconds : duration.seconds < LittleEndian.capacity 8 := duration.seconds_lt
  have nanos : duration.nanos < LittleEndian.capacity 4 :=
    Nat.lt_trans duration.nanos_lt (by decide)
  refine .bind (number_takes seconds) ?_
  refine .last (number_takes nanos) fun rest => ?_
  dsimp only
  rw [parts]
  rfl

theorem joined_steady (join : Nat → Nat → Option Duration) : Steady (decodeJoined join) := by
  refine .bind (number_steady 8) fun seconds => .bind (number_steady 4) fun nanos => ?_
  dsimp only
  cases join seconds nanos with
  | some duration => exact .pure duration
  | none => exact .throw _

theorem decodeDuration_eq : decodeDuration = decodeJoined Duration.ofParts? := rfl

theorem duration_takes (duration : Duration) :
    Takes decodeDuration (encodeDuration duration) duration := by
  rw [decodeDuration_eq]
  exact joined_takes duration.ofParts?_parts

theorem duration_steady : Steady decodeDuration := by
  rw [decodeDuration_eq]
  exact joined_steady _

end Payload

/-! ## Runs -/

structure ExecutionRecord.InWords (record : ExecutionRecord) : Prop where
  index : record.index < wordLimit
  resultIds : record.resultIds.length < wordLimit

structure ExecutionRun.InWords (run : ExecutionRun) : Prop where
  records : run.records.length < wordLimit
  each : ∀ record ∈ run.records, record.InWords

namespace Payload

theorem record_takes {record : ExecutionRecord} (inWords : record.InWords) :
    Takes decodeRecord (encodeRecord record) record := by
  have ids := list_takes inWords.resultIds fun id _ => id_takes id
  have index : record.index < LittleEndian.capacity 8 := inWords.index
  unfold encodeRecord
  simp only [List.append_assoc]
  refine .bind (number_takes index) ?_
  refine .bind (strategy_takes record.strategy) ?_
  refine .bind (duration_takes record.latency) ?_
  exact .last ids fun _ => rfl

theorem record_steady : Steady decodeRecord :=
  .bind (number_steady 8) fun _ => .bind strategy_steady fun _ => .bind duration_steady fun _ =>
    .bind (list_steady id_steady) fun _ => .pure _

theorem run_takes {run : ExecutionRun} (inWords : run.InWords) :
    Takes decodeRun (encodeRun run) run := by
  have records := list_takes inWords.records fun record member =>
    record_takes (inWords.each record member)
  unfold encodeRun
  simp only [List.append_assoc]
  refine .bind (strategy_takes run.strategy) ?_
  refine .bind records ?_
  exact .last (duration_takes run.wallClock) fun _ => rfl

theorem run_steady : Steady decodeRun :=
  .bind strategy_steady fun _ => .bind (list_steady record_steady) fun _ =>
    .bind duration_steady fun _ => .pure _

end Payload

/-! ## Reports -/

structure RecallReport.InWords (report : RecallReport) : Prop where
  queryCount : report.queryCount < wordLimit
  latencyCount : report.latency.count < wordLimit
  recalls : ∀ recalls, report.perQueryRecall = some recalls → recalls.length < wordLimit

namespace Payload

theorem stats_takes {stats : LatencyStats} (fits : stats.count < wordLimit) :
    Takes decodeStats (encodeStats stats) stats := by
  have count : stats.count < LittleEndian.capacity 8 := fits
  unfold encodeStats
  simp only [List.append_assoc]
  refine .bind (number_takes count) ?_
  refine .bind (double_takes stats.mean) ?_
  refine .bind (double_takes stats.p50) ?_
  refine .bind (double_takes stats.p95) ?_
  refine .bind (double_takes stats.p99) ?_
  refine .bind (double_takes stats.least) ?_
  exact .last (double_takes stats.greatest) fun _ => rfl

theorem stats_steady : Steady decodeStats :=
  .bind (number_steady 8) fun _ => .bind double_steady fun _ => .bind double_steady fun _ =>
    .bind double_steady fun _ => .bind double_steady fun _ => .bind double_steady fun _ =>
      .bind double_steady fun _ => .pure _

theorem report_takes {report : RecallReport} (inWords : report.InWords) :
    Takes decodeReport (encodeReport report) report := by
  have count : report.queryCount < LittleEndian.capacity 8 := inWords.queryCount
  have recalls : Takes (decodeOption (decodeList decodeDouble))
      (encodeOption (encodeList encodeDouble) report.perQueryRecall) report.perQueryRecall :=
    option_takes fun recalls kept => list_takes (inWords.recalls recalls kept) fun number _ =>
      double_takes number
  unfold encodeReport
  simp only [List.append_assoc]
  refine .bind (strategy_takes report.strategy) ?_
  refine .bind (number_takes count) ?_
  refine .bind (double_takes report.aggregateRecall) ?_
  refine .bind (double_takes report.queriesPerSecond) ?_
  refine .bind (duration_takes report.wallClock) ?_
  refine .bind (stats_takes inWords.latencyCount) ?_
  exact .last recalls fun _ => rfl

theorem report_steady : Steady decodeReport :=
  .bind strategy_steady fun _ => .bind (number_steady 8) fun _ => .bind double_steady fun _ =>
    .bind double_steady fun _ => .bind duration_steady fun _ => .bind stats_steady fun _ =>
      .bind (option_steady (list_steady double_steady)) fun _ => .pure _

end Payload

end RangeRecall
