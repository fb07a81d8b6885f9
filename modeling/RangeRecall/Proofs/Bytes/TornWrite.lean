import RangeRecall.Proofs.GroundTruth.Reading
import RangeRecall.Proofs.Vector.Encoding

/-! Torn writes. A device with too little room takes the longest run of whole fields that fits and
refuses the next field. What it has taken by then is the encoding of nothing, so that reading it
reports an error instead of a shorter value. -/

namespace RangeRecall

namespace Sink

def withRoom (room : Nat) : Sink :=
  { room := some room }

/-- The bytes are the longest run of whole fields, from the first one on, that fits. -/
structure LongestFitting (fields : List (List UInt8)) (room : Nat) (bytes : List UInt8) :
    Prop where
  whole : ∃ count, bytes = (fields.take count).flatten
  fits : bytes.length ≤ room
  longest : ∀ count, (fields.take count).flatten.length ≤ room →
    (fields.take count).flatten.length ≤ bytes.length

theorem LongestFitting.of_next {taken rest : List (List UInt8)} {next : List UInt8} {room : Nat}
    (fits : taken.flatten.length ≤ room) (exceeds : room < taken.flatten.length + next.length) :
    LongestFitting (taken ++ next :: rest) room taken.flatten where
  whole := ⟨taken.length, by rw [List.take_left]⟩
  fits := fits
  longest := by
    intro count within
    -- A run that reaches the refused field holds everything before it as well.
    by_cases before : count ≤ taken.length
    · have split : taken.flatten.length =
          (taken.take count).flatten.length + (taken.drop count).flatten.length := by
        rw [← List.length_append, ← List.flatten_append, List.take_append_drop]
      rw [List.take_append_of_le_length before, split]
      exact Nat.le_add_right _ _
    · have reached : (taken ++ next :: rest).take count =
          taken ++ next :: rest.take (count - taken.length - 1) := by
        rw [List.take_append, List.take_of_length_le (by omega), List.take_cons (by omega)]
      rw [reached, List.flatten_append, List.flatten_cons, List.length_append,
        List.length_append] at within
      omega

theorem LongestFitting.isPrefix {fields : List (List UInt8)} {room : Nat} {bytes : List UInt8}
    (longest : LongestFitting fields room bytes) : bytes <+: fields.flatten := by
  rcases longest.whole with ⟨count, rfl⟩
  refine ⟨(fields.drop count).flatten, ?_⟩
  rw [← List.flatten_append, List.take_append_drop]

variable {sink : Sink} {room : Nat}

theorem write_of_fits (limited : sink.room = some room) {field : List UInt8}
    (fits : field.length ≤ room) :
    sink.write field =
      (.ok (), { sink.afterFields [field] with room := some (room - field.length) }) := by
  rw [write, limited]
  exact if_pos fits

theorem write_of_exceeds (limited : sink.room = some room) {field : List UInt8}
    (exceeds : room < field.length) : sink.write field = (.error fullDevice, sink) := by
  rw [write, limited]
  exact if_neg (Nat.not_le.mpr exceeds)

theorem contents_afterField (sink : Sink) (field : List UInt8) (left : Option Nat) :
    { sink.afterFields [field] with room := left }.contents = sink.contents ++ field := by
  simp [contents, afterFields]

theorem writeAll_of_fits (limited : sink.room = some room) {fields : List (List UInt8)}
    (fits : fields.flatten.length ≤ room) :
    ∃ last, sink.writeAll fields = (.ok (), last) ∧
      last.contents = sink.contents ++ fields.flatten := by
  induction fields generalizing sink room with
  | nil => exact ⟨sink, rfl, by rw [List.flatten_nil, List.append_nil]⟩
  | cons field rest induction =>
      rw [List.flatten_cons, List.length_append] at fits
      have first := write_of_fits limited (show field.length ≤ room by omega)
      rcases @induction { sink.afterFields [field] with room := some (room - field.length) }
        (room - field.length) rfl (by omega) with ⟨last, written, contents⟩
      refine ⟨last, ?_, ?_⟩
      · rw [writeAll, first]
        exact written
      · rw [contents, contents_afterField, List.flatten_cons, List.append_assoc]

theorem writeAll_of_exceeds (limited : sink.room = some room) {fields : List (List UInt8)}
    (exceeds : room < fields.flatten.length) :
    ∃ taken next rest last, fields = taken ++ next :: rest ∧ taken.flatten.length ≤ room ∧
      room < taken.flatten.length + next.length ∧
      sink.writeAll fields = (.error fullDevice, last) ∧
      last.contents = sink.contents ++ taken.flatten := by
  induction fields generalizing sink room with
  | nil => exact absurd exceeds (Nat.not_lt_zero room)
  | cons field rest induction =>
      by_cases fits : field.length ≤ room
      · rw [List.flatten_cons, List.length_append] at exceeds
        have first := write_of_fits limited fits
        rcases @induction { sink.afterFields [field] with room := some (room - field.length) }
          (room - field.length) rfl (by omega) with
          ⟨taken, next, others, last, rfl, within, beyond, written, contents⟩
        refine ⟨field :: taken, next, others, last, rfl, ?_, ?_, ?_, ?_⟩
        · rw [List.flatten_cons, List.length_append]
          omega
        · rw [List.flatten_cons, List.length_append]
          omega
        · rw [writeAll, first]
          exact written
        · rw [contents, contents_afterField, List.flatten_cons, List.append_assoc]
      · have refused := write_of_exceeds limited (Nat.lt_of_not_le fits)
        refine ⟨[], field, rest, sink, rfl, Nat.zero_le room, ?_, ?_, ?_⟩
        · rw [List.flatten_nil, List.length_nil]
          omega
        · rw [writeAll, refused]
        · rw [List.flatten_nil, List.append_nil]

/-- How a writer of the given fields ends on a device with some room, and what can be read of
that: it succeeds exactly if everything fits, it is stopped by the device otherwise, and neither
what the device has taken by then nor any other beginning of the encoding can be read. -/
structure DetectsTornWrites (fields : List (List UInt8)) (write : Sink → Except Error Unit × Sink)
    (Unreadable : List UInt8 → Prop) (room : Nat) : Prop where
  succeeds_iff : (write (withRoom room)).1 = .ok () ↔ fields.flatten.length ≤ room
  complete : fields.flatten.length ≤ room → (write (withRoom room)).2.contents = fields.flatten
  stopped : room < fields.flatten.length →
    (write (withRoom room)).1 = .error (.device fullDevice) ∧
      LongestFitting fields room (write (withRoom room)).2.contents
  unreadable : room < fields.flatten.length → Unreadable (write (withRoom room)).2.contents
  beginnings : ∀ bytes, bytes <+: fields.flatten → bytes ≠ fields.flatten → Unreadable bytes

theorem detectsTornWrites {fields : List (List UInt8)} {write : Sink → Except Error Unit × Sink}
    {Unreadable : List UInt8 → Prop} (writes : ∀ sink, write sink = sink.writeFields fields)
    (beginnings : ∀ bytes, bytes <+: fields.flatten → bytes ≠ fields.flatten → Unreadable bytes)
    (room : Nat) : DetectsTornWrites fields write Unreadable room := by
  by_cases fits : fields.flatten.length ≤ room
  · rcases @writeAll_of_fits (withRoom room) room rfl fields fits with ⟨last, written, contents⟩
    have whole : write (withRoom room) = (.ok (), last) := by
      rw [writes, writeFields, written]
    have notTorn : ¬room < fields.flatten.length := Nat.not_lt.mpr fits
    constructor
    · exact ⟨fun _ => fits, fun _ => by rw [whole]⟩
    · intro _
      rw [whole]
      exact contents
    · exact fun torn => absurd torn notTorn
    · exact fun torn => absurd torn notTorn
    · exact beginnings
  · have exceeds := Nat.lt_of_not_le fits
    rcases @writeAll_of_exceeds (withRoom room) room rfl fields exceeds with
      ⟨taken, next, rest, last, split, within, beyond, written, contents⟩
    have part : write (withRoom room) = (.error (.device fullDevice), last) := by
      rw [writes, writeFields, written]
    have longest : LongestFitting fields room (write (withRoom room)).2.contents := by
      rw [part, contents, split]
      exact .of_next within beyond
    constructor
    · rw [part]
      exact ⟨fun succeeded => (by cases succeeded), fun whole => absurd whole fits⟩
    · exact fun whole => absurd whole fits
    · exact fun _ => ⟨by rw [part], longest⟩
    · intro _
      -- What the device holds is not everything, since that has no room.
      refine beginnings _ longest.isPrefix fun same => fits ?_
      rw [← same]
      exact longest.fits
    · exact beginnings

theorem writeFields_cons (sink : Sink) (field : List UInt8) (rest : List (List UInt8)) :
    sink.writeFields (field :: rest) =
      match sink.writeFields [field] with
      | (.ok (), next) => next.writeFields rest
      | (.error error, next) => (.error error, next) := by
  simp only [writeFields, writeAll]
  rcases sink.write field with ⟨_ | _, next⟩ <;> rfl

end Sink

/-! ## Vector batches -/

namespace VectorBatch

variable {batch : VectorBatch}

def Unreadable (bytes : List UInt8) : Prop :=
  ∀ source : Source, source.Reliable → source.ahead = bytes → ∀ requireNonEmpty,
    ∃ cause, read source requireNonEmpty = .error (.format cause)

theorem write_eq_writeFields (countFits : batch.count < fieldLimit)
    (dimensionFits : batch.dimension < fieldLimit) (sink : Sink) :
    batch.write sink = sink.writeFields batch.fields := by
  have word {field : String} {value : Nat} (fits : value < fieldLimit) (sink : Sink) :
      sink.writeWord field value = sink.writeFields [LittleEndian.encode 4 value] := by
    rw [Sink.writeWord, encodeWord, if_pos fits]
  rw [write, fields, Sink.writeFields_cons, word countFits]
  rcases sink.writeFields [LittleEndian.encode 4 batch.count] with ⟨_ | _, next⟩
  · rfl
  · dsimp only
    rw [Sink.writeFields_cons, word dimensionFits]
    rcases next.writeFields [LittleEndian.encode 4 batch.dimension] with ⟨_ | _, last⟩ <;> rfl

theorem length_encode (batch : VectorBatch) :
    batch.encode.length = headerSize + 4 * (batch.count * batch.dimension) := by
  rw [encode_eq, List.length_append, List.length_append, LittleEndian.length_encode,
    LittleEndian.length_encode, FieldCodec.length_encodeAll, batch.length_components, headerSize]
  omega

theorem eq_of_encode_prefix {first second : VectorBatch} (countFits : first.count < fieldLimit)
    (dimensionFits : first.dimension < fieldLimit) (otherCountFits : second.count < fieldLimit)
    (otherDimensionFits : second.dimension < fieldLimit)
    (begins : first.encode <+: second.encode) : first.encode = second.encode := by
  rcases begins with ⟨rest, whole⟩
  have split := whole
  simp only [encode_eq, List.append_assoc] at split
  have counts := List.append_inj split (by rw [LittleEndian.length_encode,
    LittleEndian.length_encode])
  have dimensions := List.append_inj counts.2 (by rw [LittleEndian.length_encode,
    LittleEndian.length_encode])
  have sameCount : first.count = second.count := by
    rw [← @LittleEndian.decode_encode 4 _ countFits, counts.1,
      @LittleEndian.decode_encode 4 _ otherCountFits]
  have sameDimension : first.dimension = second.dimension := by
    rw [← @LittleEndian.decode_encode 4 _ dimensionFits, dimensions.1,
      @LittleEndian.decode_encode 4 _ otherDimensionFits]
  have sameLength : first.encode.length = second.encode.length := by
    rw [length_encode, length_encode, sameCount, sameDimension]
  exact (List.IsPrefix.eq_of_length ⟨rest, whole⟩ sameLength)

theorem unreadable_of_prefix (countFits : batch.count < fieldLimit)
    (dimensionFits : batch.dimension < fieldLimit) {bytes : List UInt8}
    (begins : bytes <+: batch.encode) (torn : bytes ≠ batch.encode) : Unreadable bytes := by
  intro source reliable ahead requireNonEmpty
  rcases answer : read source requireNonEmpty with error | ⟨found, next⟩
  · rcases read_eq_error reliable answer with ⟨cause, rfl⟩
    exact ⟨cause, rfl⟩
  · rcases encodes_iff.mp (encodes_of_read reliable answer).1 with
      ⟨otherCountFits, otherDimensionFits, whole⟩
    rw [ahead] at whole
    refine absurd ?_ torn
    rw [whole] at begins ⊢
    exact eq_of_encode_prefix otherCountFits otherDimensionFits countFits dimensionFits begins

end VectorBatch

/-! ## Ground truths -/

namespace GroundTruth

variable {truth : GroundTruth}

def Unreadable (bytes : List UInt8) : Prop :=
  ∀ source : Source, source.Reliable → source.ahead = bytes →
    ∃ cause, read source = .error (.format cause)

theorem write_eq_writeFields (fits : truth.queryCount < fieldLimit) (sink : Sink) :
    truth.write sink = sink.writeFields truth.fields := by
  change _ = sink.writeFields (LittleEndian.encode 4 truth.queryCount :: truth.fields.drop 1)
  rw [write, Sink.writeFields_cons, Sink.writeWord, encodeWord, if_pos fits]
  dsimp only
  rcases sink.writeFields [LittleEndian.encode 4 truth.queryCount] with ⟨_ | _, next⟩ <;> rfl

theorem unreadable_of_prefix (fits : truth.queryCount < fieldLimit) {bytes : List UInt8}
    (begins : bytes <+: truth.encode) (torn : bytes ≠ truth.encode) : Unreadable bytes := by
  intro source reliable ahead
  rcases answer : read source with error | ⟨found, next⟩
  · rcases (read_eq_error_iff reliable).mp answer with ⟨cause, rfl, _⟩
    exact ⟨cause, rfl⟩
  · rcases (read_eq_ok_iff reliable).mp answer with ⟨taken, rest, encodes, whole, _⟩
    rcases begins with ⟨missing, complete⟩
    rw [ahead] at whole
    have same : taken ++ (rest ++ missing) = truth.encode ++ [] := by
      rw [List.append_nil, ← complete, whole, List.append_assoc]
    have cut := encodes_unique encodes (encodes_iff.mpr ⟨fits, rfl⟩) same
    refine absurd ?_ torn
    rw [← complete, (List.append_eq_nil_iff.mp cut.2).2, List.append_nil]

end GroundTruth

/-- On a device with any amount of room, writing a batch or a ground truth that fits the format
succeeds exactly if its whole encoding fits the device. Otherwise the device refuses, it holds the
longest run of whole fields that fits, and neither this nor any other beginning of the encoding
can be read as a batch or a ground truth. -/
theorem torn_writes_detected (room : Nat) :
    (∀ batch : VectorBatch, batch.count < fieldLimit → batch.dimension < fieldLimit →
      Sink.DetectsTornWrites batch.fields batch.write VectorBatch.Unreadable room) ∧
    ∀ truth : GroundTruth, truth.queryCount < fieldLimit →
      Sink.DetectsTornWrites truth.fields truth.write GroundTruth.Unreadable room := by
  constructor
  · intro batch countFits dimensionFits
    exact Sink.detectsTornWrites (VectorBatch.write_eq_writeFields countFits dimensionFits)
      (fun _ => VectorBatch.unreadable_of_prefix countFits dimensionFits) room
  · intro truth fits
    exact Sink.detectsTornWrites (GroundTruth.write_eq_writeFields fits)
      (fun _ => GroundTruth.unreadable_of_prefix fits) room

theorem thirteen_bytes_torn :
    VectorBatch.twoVectors.count < fieldLimit ∧ VectorBatch.twoVectors.dimension < fieldLimit ∧
      GroundTruth.oneNeighbor.queryCount < fieldLimit ∧
      VectorBatch.Unreadable (VectorBatch.twoVectors.encode.take 12) ∧
      GroundTruth.Unreadable (GroundTruth.oneNeighbor.encode.take 12) := by
  have laws := torn_writes_detected 13
  have batch := laws.1 VectorBatch.twoVectors (by decide) (by decide)
  have truth := laws.2 GroundTruth.oneNeighbor (by decide)
  exact ⟨by decide, by decide, by decide, batch.unreadable (by decide),
    truth.unreadable (by decide)⟩

end RangeRecall
