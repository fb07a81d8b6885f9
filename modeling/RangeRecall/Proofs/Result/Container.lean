import RangeRecall.Proofs.Bytes.Checksum
import RangeRecall.Proofs.Result.Header
import RangeRecall.Proofs.Result.Payload
import RangeRecall.Result.Container

/-! Result files, whole and damaged. A whole file holds its value. A file that stops short is
refused, and so is every small change of the payload; a change of the header is refused or does
not matter. So a damaged file may be lost, but it is never taken for another result. -/

namespace RangeRecall

inductive Error.RefusesContent : Error → Prop where
  | format (cause : FormatError) : RefusesContent (.format cause)
  | checksumMismatch : RefusesContent .checksumMismatch
  | serialization (cause : SerializationError) : RefusesContent (.serialization cause)

namespace ResultFile

/-! ## Payloads -/

theorem payloadOf_append {header : List UInt8} (whole : header.length = ResultHeader.size)
    (kind : PayloadKind) (payload : List UInt8) :
    payloadOf kind (header ++ payload) =
      match ResultHeader.decode header with
      | .error cause => .error (.format cause)
      | .ok decoded =>
          match decoded.verify kind with
          | .error cause => .error (.format cause)
          | .ok () =>
              if Checksum.ofBytes payload ≠ decoded.checksum then .error .checksumMismatch
              else .ok payload := by
  have enough : ¬(header ++ payload).length < ResultHeader.size := by
    rw [List.length_append]
    omega
  rw [payloadOf, if_neg enough, List.take_left' whole, List.drop_left' whole]
  cases ResultHeader.decode header with
  | error cause => rfl
  | ok decoded =>
      dsimp only
      change ((decoded.verify kind).mapError Error.format >>= _) = _
      cases decoded.verify kind with
      | error cause => rfl
      | ok _ =>
          change (if Checksum.ofBytes payload ≠ decoded.checksum then _ else _) = _
          split <;> rfl

theorem payloadOf_eq_ok {kind : PayloadKind} {content payload : List UInt8}
    (accepted : payloadOf kind content = .ok payload) :
    ResultHeader.size ≤ content.length ∧ payload = content.drop ResultHeader.size := by
  by_cases short : content.length < ResultHeader.size
  · rw [payloadOf, if_pos short] at accepted
    cases accepted
  · have enough := Nat.le_of_not_lt short
    have whole : (content.take ResultHeader.size).length = ResultHeader.size :=
      List.length_take_of_le enough
    rw [← List.take_append_drop ResultHeader.size content, payloadOf_append whole] at accepted
    refine ⟨enough, ?_⟩
    split at accepted
    · cases accepted
    · split at accepted
      · cases accepted
      · split at accepted
        · cases accepted
        · exact (Except.ok.inj accepted).symm

theorem payloadOf_eq_error {kind : PayloadKind} {content : List UInt8} {error : Error}
    (refused : payloadOf kind content = .error error) : error.RefusesContent := by
  by_cases short : content.length < ResultHeader.size
  · rw [payloadOf, if_pos short] at refused
    cases refused
    exact .format _
  · have whole : (content.take ResultHeader.size).length = ResultHeader.size :=
      List.length_take_of_le (Nat.le_of_not_lt short)
    rw [← List.take_append_drop ResultHeader.size content, payloadOf_append whole] at refused
    split at refused
    · cases refused
      exact .format _
    · split at refused
      · cases refused
        exact .format _
      · split at refused
        · cases refused
          exact .checksumMismatch
        · cases refused

def headerOf (kind : PayloadKind) (payload : List UInt8) : List UInt8 :=
  (ResultHeader.new kind (Checksum.ofBytes payload)).encode

theorem length_headerOf (kind : PayloadKind) (payload : List UInt8) :
    (headerOf kind payload).length = ResultHeader.size :=
  ResultHeader.length_encode rfl

theorem ofPayload_eq (kind : PayloadKind) (payload : List UInt8) :
    ofPayload kind payload = headerOf kind payload ++ payload := rfl

theorem drop_ofPayload (kind : PayloadKind) (payload : List UInt8) :
    (ofPayload kind payload).drop ResultHeader.size = payload :=
  List.drop_left' (length_headerOf kind payload)

theorem payloadOf_headerOf (kind : PayloadKind) (payload other : List UInt8) :
    payloadOf kind (headerOf kind payload ++ other) =
      if Checksum.ofBytes other ≠ Checksum.ofBytes payload then .error .checksumMismatch
      else .ok other := by
  rw [payloadOf_append (length_headerOf kind payload), headerOf, ResultHeader.decode_encode rfl]
  dsimp only
  rw [ResultHeader.verify_new]
  rfl

theorem payloadOf_of_ne {kind expected : PayloadKind} (other : kind ≠ expected)
    (payload : List UInt8) :
    payloadOf expected (ofPayload kind payload) =
      .error (.format (.wrongKind expected kind)) := by
  rw [ofPayload_eq, payloadOf_append (length_headerOf kind payload), headerOf,
    ResultHeader.decode_encode rfl]
  dsimp only
  rw [ResultHeader.verify_new_of_ne other]

/-! ## Values -/

def read (kind : PayloadKind) (decode : Payload.Decoder α) (content : List UInt8) :
    Except Error α := do
  decodePayload decode (← payloadOf kind content)

theorem toRun_eq : toRun = read .run Payload.decodeRun := rfl

theorem toReport_eq : toReport = read .report Payload.decodeReport := rfl

section

variable {kind : PayloadKind} {decode : Payload.Decoder α} {content payload : List UInt8}
  {value : α}

theorem read_of_payload (accepted : payloadOf kind content = .ok payload) :
    read kind decode content = decodePayload decode payload := by
  rw [read, accepted]
  rfl

theorem read_of_error {error : Error} (refused : payloadOf kind content = .error error) :
    read kind decode content = .error error := by
  rw [read, refused]
  rfl

theorem decodePayload_of_takes (takes : Payload.Takes decode payload value) :
    decodePayload decode payload = .ok value := by
  have decoded := takes []
  rw [List.append_nil] at decoded
  rw [decodePayload, decoded]

theorem read_ofPayload (takes : Payload.Takes decode payload value) :
    read kind decode (ofPayload kind payload) = .ok value := by
  have accepted := payloadOf_headerOf kind payload payload
  rw [if_neg (fun differ => differ rfl)] at accepted
  rw [ofPayload_eq, read_of_payload accepted, decodePayload_of_takes takes]

theorem read_of_ne {expected : PayloadKind} (other : kind ≠ expected) :
    read expected decode (ofPayload kind payload) =
      .error (.format (.wrongKind expected kind)) :=
  read_of_error (payloadOf_of_ne other payload)

/-! ## Truncated files -/

theorem read_truncated (takes : Payload.Takes decode payload value)
    (steady : Payload.Steady decode) {count : Nat}
    (short : count < (ofPayload kind payload).length) :
    ∃ error, read kind decode ((ofPayload kind payload).take count) = .error error ∧
      error.RefusesContent := by
  rcases reply : payloadOf kind ((ofPayload kind payload).take count) with error | left
  · exact ⟨error, read_of_error reply, payloadOf_eq_error reply⟩
  · rcases payloadOf_eq_ok reply with ⟨enough, rest⟩
    rw [List.length_take] at enough
    rw [List.drop_take, drop_ofPayload] at rest
    have size : (ofPayload kind payload).length = ResultHeader.size + payload.length := by
      rw [ofPayload_eq, List.length_append, length_headerOf]
    rcases takes.error_of_short steady (by omega : count - ResultHeader.size < payload.length) with
      ⟨error, stopped⟩
    refine ⟨.serialization (.payload error), ?_, .serialization _⟩
    rw [read_of_payload reply, rest, decodePayload, stopped]

/-! ## Changed files -/

/-- The answer is the value, or an error that refuses the content. -/
inductive ReadsOrRefuses (value : α) : Except Error α → Prop where
  | reads : ReadsOrRefuses value (.ok value)
  | refuses {error : Error} (content : error.RefusesContent) :
      ReadsOrRefuses value (.error error)

theorem read_other_header (takes : Payload.Takes decode payload value) {header : List UInt8}
    (whole : header.length = ResultHeader.size) :
    ReadsOrRefuses value (read kind decode (header ++ payload)) := by
  rcases reply : payloadOf kind (header ++ payload) with error | accepted
  · rw [read_of_error reply]
    exact .refuses (payloadOf_eq_error reply)
  · have same : accepted = payload := by
      rw [(payloadOf_eq_ok reply).2, List.drop_left' whole]
    rw [read_of_payload reply, same, decodePayload_of_takes takes]
    exact .reads

theorem read_other_bytes {before old after new : List UInt8}
    (takes : Payload.Takes decode (before ++ old ++ after) value)
    (sameLength : new.length = old.length) (few : old.length ≤ 4) :
    read kind decode (headerOf kind (before ++ old ++ after) ++ (before ++ new ++ after)) =
      if new = old then .ok value else .error .checksumMismatch := by
  have reply := payloadOf_headerOf kind (before ++ old ++ after) (before ++ new ++ after)
  by_cases same : new = old
  · subst same
    rw [if_pos rfl]
    exact read_ofPayload takes
  · have differ : Checksum.ofBytes (before ++ new ++ after) ≠
        Checksum.ofBytes (before ++ old ++ after) := fun equal =>
      same (Checksum.eq_of_ofBytes_eq sameLength (sameLength ▸ few) equal)
    rw [if_pos differ] at reply
    rw [if_neg same]
    exact read_of_error reply

theorem split_payload {before old after : List UInt8}
    (whole : ofPayload kind payload = before ++ old ++ after)
    (behind : ResultHeader.size ≤ before.length) :
    before = headerOf kind payload ++ before.drop ResultHeader.size ∧
      payload = before.drop ResultHeader.size ++ old ++ after := by
  constructor
  · have taken := congrArg (List.take ResultHeader.size) whole
    rw [ofPayload_eq, List.take_left' (length_headerOf kind payload), List.append_assoc,
      List.take_append_of_le_length behind] at taken
    rw [taken, List.take_append_drop]
  · have dropped := congrArg (List.drop ResultHeader.size) whole
    rwa [drop_ofPayload, List.append_assoc, List.drop_append_of_le_length behind,
      ← List.append_assoc] at dropped

end

/-- One byte of the content is replaced, or up to four bytes in a row behind the header. -/
inductive SlightlyChanged (content : List UInt8) : List UInt8 → Prop where
  | oneByte (position : Nat) (byte : UInt8) :
      SlightlyChanged content (content.set position byte)
  | fewBytes {before old after new : List UInt8} (whole : content = before ++ old ++ after)
      (behind : ResultHeader.size ≤ before.length) (sameLength : new.length = old.length)
      (few : old.length ≤ 4) : SlightlyChanged content (before ++ new ++ after)

section

variable {kind : PayloadKind} {decode : Payload.Decoder α} {payload : List UInt8} {value : α}

theorem read_fewBytes {before old after new : List UInt8}
    (takes : Payload.Takes decode payload value)
    (whole : ofPayload kind payload = before ++ old ++ after)
    (behind : ResultHeader.size ≤ before.length) (sameLength : new.length = old.length)
    (few : old.length ≤ 4) :
    ReadsOrRefuses value (read kind decode (before ++ new ++ after)) := by
  rcases split_payload whole behind with ⟨header, rest⟩
  have answer : read kind decode (before ++ new ++ after) =
      if new = old then .ok value else .error .checksumMismatch := by
    rw [rest] at takes header
    rw [header, List.append_assoc, List.append_assoc, ← List.append_assoc (before.drop _)]
    exact read_other_bytes takes sameLength few
  rw [answer]
  split
  · exact .reads
  · exact .refuses .checksumMismatch

theorem read_oneByte (takes : Payload.Takes decode payload value) (position : Nat)
    (byte : UInt8) :
    ReadsOrRefuses value (read kind decode ((ofPayload kind payload).set position byte)) := by
  have headerSize := length_headerOf kind payload
  by_cases inHeader : position < ResultHeader.size
  · rw [ofPayload_eq, List.set_append_left _ _ (headerSize ▸ inHeader)]
    exact read_other_header takes (by rw [List.length_set, headerSize])
  · by_cases inside : position < (ofPayload kind payload).length
    · -- The byte stands alone between what comes before it and what comes after it.
      have whole : ofPayload kind payload = (ofPayload kind payload).take position ++
          [(ofPayload kind payload)[position]] ++ (ofPayload kind payload).drop (position + 1) := by
        rw [List.append_assoc, List.singleton_append, List.getElem_cons_drop,
          List.take_append_drop]
      have behind : ResultHeader.size ≤ ((ofPayload kind payload).take position).length := by
        rw [List.length_take]
        omega
      have sameLength : [byte].length = [(ofPayload kind payload)[position]].length := rfl
      have changed : (ofPayload kind payload).set position byte =
          (ofPayload kind payload).take position ++ [byte] ++
            (ofPayload kind payload).drop (position + 1) := by
        rw [List.set_eq_take_append_cons_drop, if_pos inside, List.append_assoc,
          List.singleton_append]
      rw [changed]
      exact read_fewBytes takes whole behind sameLength (Nat.succ_le_succ (Nat.zero_le 3))
    · rw [List.set_eq_of_length_le (Nat.le_of_not_lt inside), read_ofPayload takes]
      exact .reads

theorem read_slightlyChanged (takes : Payload.Takes decode payload value)
    {changed : List UInt8} (slightly : SlightlyChanged (ofPayload kind payload) changed) :
    ReadsOrRefuses value (read kind decode changed) := by
  cases slightly with
  | oneByte position byte => exact read_oneByte takes position byte
  | fewBytes whole behind sameLength few => exact read_fewBytes takes whole behind sameLength few

end

/-! ## Runs and reports -/

def oneRecord : ExecutionRun where
  strategy := .sequentialScan
  records := [{
    index := 0
    strategy := .sequentialScan
    latency := Duration.zero
    resultIds := [11, 12] }]
  wallClock := Duration.zero

theorem oneRecord_inWords : oneRecord.InWords where
  records := by decide
  each := by
    intro record member
    rw [List.mem_singleton.mp member]
    exact ⟨by decide, by decide⟩

/-- A run or report is read from its file, and with one other byte, or with up to four other bytes
in a row behind the header, the file is refused or read as before. -/
theorem changed_never_misread :
    (∀ run : ExecutionRun, run.InWords → toRun (ofRun run) = .ok run ∧
      ∀ changed, SlightlyChanged (ofRun run) changed → ReadsOrRefuses run (toRun changed)) ∧
    (∀ report : RecallReport, report.InWords → toReport (ofReport report) = .ok report ∧
      ∀ changed, SlightlyChanged (ofReport report) changed →
        ReadsOrRefuses report (toReport changed)) := by
  rw [toRun_eq, toReport_eq]
  constructor
  · intro run inWords
    have takes := Payload.run_takes inWords
    exact ⟨read_ofPayload takes, fun changed slightly => read_slightlyChanged takes slightly⟩
  · intro report inWords
    have takes := Payload.report_takes inWords
    exact ⟨read_ofPayload takes, fun changed slightly => read_slightlyChanged takes slightly⟩

theorem oneRecord_changed :
    ReadsOrRefuses oneRecord (toRun (headerOf .run (Payload.encodeRun oneRecord) ++
      (Payload.encodeRun oneRecord).take 44 ++ [13, 0, 0, 0] ++
      (Payload.encodeRun oneRecord).drop 48)) := by
  have payload : Payload.encodeRun oneRecord = (Payload.encodeRun oneRecord).take 44 ++
      ([11, 0, 0, 0] ++ (Payload.encodeRun oneRecord).drop 48) := by
    decide
  have whole : ofRun oneRecord = headerOf .run (Payload.encodeRun oneRecord) ++
      (Payload.encodeRun oneRecord).take 44 ++ [11, 0, 0, 0] ++
      (Payload.encodeRun oneRecord).drop 48 := by
    rw [List.append_assoc, List.append_assoc, ← payload]
    rfl
  have behind : ResultHeader.size ≤ (headerOf .run (Payload.encodeRun oneRecord) ++
      (Payload.encodeRun oneRecord).take 44).length := by
    rw [List.length_append, length_headerOf]
    exact Nat.le_add_right _ _
  exact (changed_never_misread.1 oneRecord oneRecord_inWords).2 _
    (.fewBytes whole behind rfl (by decide))

/-- A run or report is read from its whole file, and no part of the file that stops short of its
end is accepted. -/
theorem truncated_never_accepted :
    (∀ run : ExecutionRun, run.InWords → toRun (ofRun run) = .ok run ∧
      ∀ count < (ofRun run).length,
        ∃ error, toRun ((ofRun run).take count) = .error error ∧ error.RefusesContent) ∧
    (∀ report : RecallReport, report.InWords → toReport (ofReport report) = .ok report ∧
      ∀ count < (ofReport report).length,
        ∃ error, toReport ((ofReport report).take count) = .error error ∧
          error.RefusesContent) := by
  rw [toRun_eq, toReport_eq]
  constructor
  · intro run inWords
    have takes := Payload.run_takes inWords
    exact ⟨read_ofPayload takes, fun count short => read_truncated takes Payload.run_steady short⟩
  · intro report inWords
    have takes := Payload.report_takes inWords
    exact ⟨read_ofPayload takes,
      fun count short => read_truncated takes Payload.report_steady short⟩

theorem oneRecord_truncated :
    ∃ error, toRun ((ofRun oneRecord).take 70) = .error error ∧ error.RefusesContent :=
  (truncated_never_accepted.1 oneRecord oneRecord_inWords).2 70 (by decide)

end ResultFile

end RangeRecall
