import RangeRecall.Bytes.Field

/-! Devices. A device delivers its bytes in order, in pieces of any size, until it fails: whether a
read succeeds depends on the bytes ahead and on the position from which the device fails, never on
the pieces. A source that never fails delivers everything, and a sink without a limit takes every
field. -/

namespace RangeRecall

namespace Source

@[simp] theorem ahead_advance (source : Source) (count : Nat) :
    (source.advance count).ahead = source.ahead.drop count := rfl

@[simp] theorem failure_advance (source : Source) (count : Nat) :
    (source.advance count).failure = source.failure := rfl

@[simp] theorem advance_zero (source : Source) : source.advance 0 = source := rfl

theorem advance_advance (source : Source) (first second : Nat) :
    (source.advance first).advance second = source.advance (first + second) := by
  simp only [advance, List.drop_drop, Nat.add_assoc]

/-! ## Single deliveries -/

theorem delivery_le_ahead (source : Source) (wanted : Nat) :
    source.delivery wanted ≤ source.ahead.length := by
  unfold delivery
  exact Nat.min_le_right _ _

/-- Whether the device fails at one of the next positions. -/
def failsWithin (source : Source) (extent : Nat) : Bool :=
  match source.failsAt with
  | some limit => decide (0 < extent ∧ limit < source.position + extent)
  | none => false

variable {source : Source}

theorem failsWithin_eq_true {extent : Nat} :
    source.failsWithin extent = true ↔
      ∃ limit, source.failsAt = some limit ∧ 0 < extent ∧ limit < source.position + extent := by
  unfold failsWithin
  cases source.failsAt <;> simp

theorem failsWithin_iff {limit : Nat} (fails : source.failsAt = some limit) {extent : Nat} :
    source.failsWithin extent = true ↔ 0 < extent ∧ limit < source.position + extent := by
  rw [failsWithin, fails, decide_eq_true_eq]

theorem failsWithin_zero (source : Source) : source.failsWithin 0 = false := by
  unfold failsWithin
  cases source.failsAt <;> rfl

theorem failsWithin_of_fails (fails : source.fails = true) {extent : Nat}
    (positive : 0 < extent) : source.failsWithin extent = true := by
  unfold Source.fails at fails
  cases limit : source.failsAt with
  | none => simp [limit] at fails
  | some position =>
      simp only [limit, decide_eq_true_eq] at fails
      exact failsWithin_eq_true.mpr ⟨position, limit, positive, by omega⟩

theorem failsWithin_one (works : source.fails = false) : source.failsWithin 1 = false := by
  unfold Source.fails at works
  unfold failsWithin
  cases limit : source.failsAt with
  | none => rfl
  | some position =>
      simp only [limit, decide_eq_false_iff_not] at works
      exact decide_eq_false (by omega)

theorem failsWithin_advance (works : source.fails = false) {wanted extent : Nat}
    (delivered : source.delivery wanted ≤ extent) :
    (source.advance (source.delivery wanted)).failsWithin (extent - source.delivery wanted) =
      source.failsWithin extent := by
  unfold Source.fails at works
  unfold failsWithin
  cases limit : source.failsAt with
  | none => simp only [advance, limit]
  | some position =>
      have short : source.position + source.delivery wanted ≤ position := by
        simp only [limit, decide_eq_false_iff_not] at works
        unfold delivery
        rw [limit]
        dsimp only
        omega
      simp only [advance, limit]
      rw [decide_eq_decide]
      omega

theorem delivery_eq_zero_iff (delivers : source.piece ≠ some 0) (works : source.fails = false)
    {wanted : Nat} :
    source.delivery wanted = 0 ↔ wanted = 0 ∨ source.ahead.length = 0 := by
  have positive : ∀ piece, source.piece = some piece → 0 < piece := by
    intro piece size
    refine Nat.pos_of_ne_zero fun zero => delivers ?_
    rw [size, zero]
  unfold fails at works
  unfold delivery
  cases limit : source.failsAt with
  | none =>
      cases size : source.piece with
      | none =>
          simp only []
          omega
      | some piece =>
          have := positive piece size
          simp only []
          omega
  | some position =>
      simp only [limit, decide_eq_false_iff_not] at works
      cases size : source.piece with
      | none =>
          simp only []
          omega
      | some piece =>
          have := positive piece size
          simp only []
          omega

/-! ## Reading many bytes -/

theorem readExactly_eq (delivers : source.piece ≠ some 0) (wanted : Nat) :
    source.readExactly wanted =
      if source.failsWithin (min wanted (source.ahead.length + 1)) then
        .error source.failure
      else if wanted ≤ source.ahead.length then
        .ok (source.ahead.take wanted, source.advance wanted)
      else .error .endOfInput := by
  induction wanted using Nat.strongRecOn generalizing source with
  | ind wanted induction =>
      rw [readExactly]
      by_cases nothing : wanted = 0
      · simp [nothing, failsWithin_zero]
      · rw [if_neg nothing]
        cases works : source.fails with
        | true => rw [if_pos rfl, if_pos (failsWithin_of_fails works (by omega))]
        | false =>
            rw [if_neg Bool.false_ne_true]
            dsimp only
            by_cases empty : source.delivery wanted = 0
            · have atEnd : source.ahead.length = 0 :=
                ((delivery_eq_zero_iff delivers works).mp empty).resolve_left nothing
              have one : min wanted (source.ahead.length + 1) = 1 := by omega
              rw [if_pos empty, one, failsWithin_one works, if_neg Bool.false_ne_true,
                if_neg (by omega)]
            · -- A delivery of any size leaves a smaller request to the same device.
              have within := source.delivery_le wanted
              have bounded := source.delivery_le_ahead wanted
              have later := @induction (wanted - source.delivery wanted) (by omega)
                (source.advance (source.delivery wanted)) delivers
              have extent : min (wanted - source.delivery wanted)
                  (source.ahead.length - source.delivery wanted + 1) =
                    min wanted (source.ahead.length + 1) - source.delivery wanted := by omega
              rw [if_neg empty, later, ahead_advance, List.length_drop, extent,
                failsWithin_advance works (by omega), advance_advance]
              by_cases fails : source.failsWithin (min wanted (source.ahead.length + 1)) = true
              · rw [if_pos fails, if_pos fails, failure_advance]
              · rw [if_neg fails, if_neg fails]
                by_cases enough : wanted ≤ source.ahead.length
                · have restEnough : wanted - source.delivery wanted ≤
                      source.ahead.length - source.delivery wanted := by omega
                  have whole : source.delivery wanted + (wanted - source.delivery wanted) =
                      wanted := by omega
                  have taken : source.ahead.take (source.delivery wanted) ++
                      (source.ahead.drop (source.delivery wanted)).take
                        (wanted - source.delivery wanted) = source.ahead.take wanted := by
                    rw [← List.take_add, whole]
                  rw [if_pos restEnough, if_pos enough, whole]
                  exact congrArg (fun bytes => Except.ok (bytes, source.advance wanted)) taken
                · have restShort : ¬wanted - source.delivery wanted ≤
                      source.ahead.length - source.delivery wanted := by omega
                  rw [if_neg restShort, if_neg enough]

theorem readToEnd_eq (delivers : source.piece ≠ some 0) :
    source.readToEnd =
      if source.failsWithin (source.ahead.length + 1) then .error source.failure
      else .ok (source.ahead, source.advance source.ahead.length) := by
  induction size : source.ahead.length using Nat.strongRecOn generalizing source with
  | ind length induction =>
      rw [readToEnd]
      cases works : source.fails with
      | true => rw [if_pos rfl, if_pos (failsWithin_of_fails works (Nat.succ_pos length))]
      | false =>
          rw [if_neg Bool.false_ne_true]
          dsimp only
          rw [size]
          by_cases empty : source.delivery length = 0
          · have atEnd : length = 0 := by
              have cases := (delivery_eq_zero_iff delivers works).mp empty
              omega
            have nothing : source.ahead = [] := List.eq_nil_of_length_eq_zero (size.trans atEnd)
            rw [if_pos empty, nothing, atEnd, failsWithin_one works, if_neg Bool.false_ne_true,
              advance_zero]
          · -- Something was delivered, so there is less ahead than before.
            have bounded := source.delivery_le_ahead length
            have restSize : (source.advance (source.delivery length)).ahead.length =
                length - source.delivery length := by
              rw [ahead_advance, List.length_drop, size]
            have later := @induction (length - source.delivery length) (by omega)
              (source.advance (source.delivery length)) delivers restSize
            have extent : length - source.delivery length + 1 =
                length + 1 - source.delivery length := by omega
            have whole : source.delivery length + (length - source.delivery length) = length := by
              omega
            rw [if_neg empty, later, extent, failsWithin_advance works (by omega),
              advance_advance, whole]
            by_cases fails : source.failsWithin (length + 1) = true
            · rw [if_pos fails, if_pos fails, failure_advance]
            · rw [if_neg fails, if_neg fails]
              simp

/-! ## Reading fields -/

theorem report_of_failure {error : DeviceError} (failure : error.kind ≠ .unexpectedEof)
    (ended : Error) : error.report ended = .device error := by
  unfold DeviceError.report
  split
  · exact absurd ‹_› failure
  · rfl

theorem report_of_end {error : DeviceError} (atEnd : error.kind = .unexpectedEof)
    (ended : Error) : error.report ended = ended := by
  rw [DeviceError.report, atEnd]

/-! ## Devices that never fail -/

/-- The device never fails, and a read that is not at the end delivers something. -/
structure Reliable (source : Source) : Prop where
  neverFails : source.failsAt = none
  delivers : source.piece ≠ some 0

theorem ofBytes_reliable (bytes : List UInt8) : (ofBytes bytes).Reliable :=
  { neverFails := rfl, delivers := nofun }

namespace Reliable

theorem advance (reliable : source.Reliable) (count : Nat) : (source.advance count).Reliable :=
  { neverFails := reliable.neverFails, delivers := reliable.delivers }

theorem fails_eq_false (reliable : source.Reliable) : source.fails = false := by
  rw [fails, reliable.neverFails]

theorem failsWithin_eq_false (reliable : source.Reliable) (extent : Nat) :
    source.failsWithin extent = false := by
  rw [failsWithin, reliable.neverFails]

theorem readExactly_eq (reliable : source.Reliable) (wanted : Nat) :
    source.readExactly wanted =
      if wanted ≤ source.ahead.length then
        .ok (source.ahead.take wanted, source.advance wanted)
      else .error .endOfInput := by
  rw [Source.readExactly_eq reliable.delivers, reliable.failsWithin_eq_false,
    if_neg Bool.false_ne_true]

theorem fill_eq (reliable : source.Reliable) (wanted : Nat) (field : String) :
    source.fill wanted field =
      if wanted ≤ source.ahead.length then
        .ok (source.ahead.take wanted, source.advance wanted)
      else .error (.format (.inputEnds field)) := by
  rw [fill, reliable.readExactly_eq]
  split <;> rfl

theorem readToEnd_eq (reliable : source.Reliable) :
    source.readToEnd = .ok (source.ahead, source.advance source.ahead.length) := by
  rw [Source.readToEnd_eq reliable.delivers, reliable.failsWithin_eq_false,
    if_neg Bool.false_ne_true]

end Reliable

def endingAt (source : Source) (limit : Nat) : Source :=
  { source with ahead := source.ahead.take (limit - source.position), failsAt := none }

theorem endingAt_reliable (delivers : source.piece ≠ some 0) (limit : Nat) :
    (source.endingAt limit).Reliable :=
  { neverFails := rfl, delivers := delivers }

theorem endingAt_advance (source : Source) (limit count : Nat) :
    (source.advance count).endingAt limit = (source.endingAt limit).advance count := by
  simp only [endingAt, advance, List.drop_take, Nat.sub_sub]

/-! ## Readers -/

/-- From every working source that begins with the bytes, the reader takes exactly these bytes
and answers with the value. -/
def Reads (reader : Source → Except Error (α × Source)) (bytes : List UInt8) (value : α) : Prop :=
  ∀ source rest, source.Reliable → source.ahead = bytes ++ rest →
    reader source = .ok (value, source.advance bytes.length)

def Stops (reader : Source → Except Error (α × Source)) (bytes : List UInt8) (error : Error) :
    Prop :=
  ∀ source, source.Reliable → source.ahead = bytes → reader source = .error error

theorem Reads.bind {first : Source → Except Error (α × Source)}
    {second : α → Source → Except Error (β × Source)} {firstBytes secondBytes : List UInt8}
    {value : α} {result : β} (firstReads : Reads first firstBytes value)
    (secondReads : Reads (second value) secondBytes result) :
    Reads (fun source => first source >>= fun reply => second reply.1 reply.2)
      (firstBytes ++ secondBytes) result := by
  intro source rest reliable ahead
  rw [List.append_assoc] at ahead
  have remaining : (source.advance firstBytes.length).ahead = secondBytes ++ rest := by
    rw [ahead_advance, ahead, List.drop_left]
  have later := secondReads _ rest (reliable.advance _) remaining
  rw [advance_advance, ← List.length_append] at later
  change (first source >>= _) = _
  rw [firstReads source _ reliable ahead]
  exact later

theorem Reads.cons {first : Source → Except Error (α × Source)}
    {others : Source → Except Error (List α × Source)} {firstBytes otherBytes : List UInt8}
    {value : α} {values : List α} (firstReads : Reads first firstBytes value)
    (othersRead : Reads others otherBytes values) :
    Reads (fun source => first source >>= fun reply =>
        others reply.2 >>= fun rest => .ok (reply.1 :: rest.1, rest.2))
      (firstBytes ++ otherBytes) (value :: values) := by
  have putInFront : Reads (fun source => others source >>= fun rest =>
      .ok (value :: rest.1, rest.2)) otherBytes (value :: values) := by
    intro source rest reliable ahead
    change (others source >>= _) = _
    rw [othersRead source rest reliable ahead]
    rfl
  intro source rest reliable ahead
  exact @Reads.bind _ _ first (fun value source => others source >>= fun rest =>
    .ok (value :: rest.1, rest.2)) _ _ _ _ firstReads putInFront source rest reliable ahead

theorem Reads.bind_stops {first : Source → Except Error (α × Source)}
    {second : α → Source → Except Error (β × Source)} {firstBytes secondBytes : List UInt8}
    {value : α} {error : Error} (firstReads : Reads first firstBytes value)
    (secondStops : Stops (second value) secondBytes error) :
    Stops (fun source => first source >>= fun reply => second reply.1 reply.2)
      (firstBytes ++ secondBytes) error := by
  intro source reliable ahead
  have remaining : (source.advance firstBytes.length).ahead = secondBytes := by
    rw [ahead_advance, ahead, List.drop_left]
  change (first source >>= _) = _
  rw [firstReads source _ reliable ahead]
  exact secondStops _ (reliable.advance _) remaining

theorem Stops.bind {first : Source → Except Error (α × Source)} {bytes : List UInt8}
    {error : Error} (firstStops : Stops first bytes error)
    (second : α → Source → Except Error (β × Source)) :
    Stops (fun source => first source >>= fun reply => second reply.1 reply.2) bytes error := by
  intro source reliable ahead
  change (first source >>= _) = _
  rw [firstStops source reliable ahead]
  rfl

end Source

namespace Sink

def afterFields (sink : Sink) (fields : List (List UInt8)) : Sink :=
  { sink with accepted := fields.reverse ++ sink.accepted }

variable {sink : Sink}

theorem afterFields_afterFields (sink : Sink) (first second : List (List UInt8)) :
    (sink.afterFields first).afterFields second = sink.afterFields (first ++ second) := by
  simp only [afterFields, List.reverse_append, List.append_assoc]

@[simp] theorem contents_afterFields (sink : Sink) (fields : List (List UInt8)) :
    (sink.afterFields fields).contents = sink.contents ++ fields.flatten := by
  simp [contents, afterFields]

theorem writeAll_eq (unlimited : sink.room = none) (fields : List (List UInt8)) :
    sink.writeAll fields = (.ok (), sink.afterFields fields) := by
  induction fields generalizing sink with
  | nil => rfl
  | cons field rest induction =>
      have first : sink.write field = (.ok (), sink.afterFields [field]) := by
        simp only [write, afterFields, unlimited]
        rfl
      have others : (sink.afterFields [field]).writeAll rest =
          (.ok (), (sink.afterFields [field]).afterFields rest) := induction unlimited
      rw [writeAll, first]
      dsimp only
      rw [others, afterFields_afterFields]
      rfl

theorem writeFields_eq (unlimited : sink.room = none) (fields : List (List UInt8)) :
    sink.writeFields fields = (.ok (), sink.afterFields fields) := by
  rw [writeFields, writeAll_eq unlimited]

theorem writeWord_eq (unlimited : sink.room = none) (field : String) (value : Nat) :
    sink.writeWord field value =
      if value < fieldLimit then (.ok (), sink.afterFields [LittleEndian.encode 4 value])
      else (.error (.invalidParameter (.exceedsField field value)), sink) := by
  unfold writeWord encodeWord
  by_cases fits : value < fieldLimit
  · rw [if_pos fits, if_pos fits]
    exact writeFields_eq unlimited _
  · rw [if_neg fits, if_neg fits]

end Sink

end RangeRecall
