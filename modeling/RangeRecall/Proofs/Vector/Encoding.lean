import RangeRecall.Proofs.Bytes.Device
import RangeRecall.Proofs.Bytes.FieldCodec
import RangeRecall.Vector.BatchFormat

/-! The byte format of vector batches. A payload is judged by quotients of its length, and the
judgement accepts exactly the components of a batch with the declared shape. -/

namespace RangeRecall

namespace VectorBatch

/-! ## Batches from components -/

theorem ofComponents_self (batch : VectorBatch) (fits : batch.count * batch.dimension < wordLimit) :
    ofComponents batch.count batch.dimension batch.components = .ok batch := by
  have notFlat : ¬(batch.dimension = 0 ∧ 0 < batch.count) := by
    rintro ⟨zero, positive⟩
    have empty := batch.count_eq_zero zero
    omega
  rw [ofComponents, dif_neg notFlat, if_neg (Nat.not_le.mpr fits),
    dif_pos batch.length_components]

theorem ofComponents_eq_ok {count dimension : Nat} {components : List Binary32}
    {batch : VectorBatch} (accepted : ofComponents count dimension components = .ok batch) :
    batch.count = count ∧ batch.dimension = dimension ∧ batch.components = components := by
  unfold ofComponents at accepted
  split at accepted
  · cases accepted
  · split at accepted
    · cases accepted
    · split at accepted
      · cases accepted
        exact ⟨rfl, rfl, rfl⟩
      · cases accepted

theorem ofComponents_eq_error {count dimension : Nat} {components : List Binary32} {error : Error}
    (refused : ofComponents count dimension components = .error error) :
    ∃ cause, error = .format cause := by
  unfold ofComponents at refused
  split at refused
  · cases refused
    exact ⟨_, rfl⟩
  · split at refused
    · cases refused
      exact ⟨_, rfl⟩
    · split at refused
      · cases refused
      · cases refused
        exact ⟨_, rfl⟩

/-! ## Payloads -/

theorem ofPayload_of_encodeAll (batch : VectorBatch)
    (fits : batch.count * batch.dimension < wordLimit) :
    ofPayload batch.count batch.dimension (FieldCodec.number.encodeAll batch.components) =
      .ok batch := by
  have size : (FieldCodec.number.encodeAll batch.components).length =
      4 * (batch.count * batch.dimension) := by
    rw [FieldCodec.length_encodeAll, batch.length_components]
  have whole : ¬4 * (batch.count * batch.dimension) % 4 ≠ 0 := by omega
  have numbers : 4 * (batch.count * batch.dimension) / 4 = batch.count * batch.dimension := by
    omega
  have decoded : (LittleEndian.groups 4 (FieldCodec.number.encodeAll batch.components)).map
      Binary32.ofBytes = batch.components := FieldCodec.number.decodeAll_encodeAll _
  unfold ofPayload
  dsimp only
  rw [size, if_neg whole, numbers, decoded]
  by_cases flat : batch.dimension = 0
  · -- Nothing is divided by the dimension here: without one there are no vectors.
    have empty := batch.count_eq_zero flat
    have components : batch.components = [] := by
      apply List.eq_nil_of_length_eq_zero
      rw [batch.length_components, empty, Nat.zero_mul]
    have rebuilt := ofComponents_self batch fits
    rw [flat, empty, components] at rebuilt
    rw [if_pos flat, empty, Nat.zero_mul, if_neg (by omega)]
    exact rebuilt
  · have divides : ¬batch.count * batch.dimension % batch.dimension ≠ 0 := by simp
    have quotient : ¬batch.count * batch.dimension / batch.dimension ≠ batch.count := by
      rw [Nat.mul_div_cancel _ (Nat.pos_of_ne_zero flat)]
      exact fun differ => differ rfl
    rw [if_neg flat, if_neg divides, if_neg quotient]
    exact ofComponents_self batch fits

theorem ofPayload_eq_ok {count dimension : Nat} {payload : List UInt8} {batch : VectorBatch}
    (accepted : ofPayload count dimension payload = .ok batch) :
    batch.count = count ∧ batch.dimension = dimension ∧
      payload = FieldCodec.number.encodeAll batch.components := by
  unfold ofPayload at accepted
  dsimp only at accepted
  split at accepted
  · cases accepted
  · rename_i whole
    split at accepted
    · rename_i flat
      split at accepted
      · cases accepted
      · rename_i empty
        have parts := ofComponents_eq_ok accepted
        have nothing : payload = [] := by
          apply List.eq_nil_of_length_eq_zero
          omega
        refine ⟨?_, parts.2.1.trans flat.symm, ?_⟩
        · rw [parts.1]
          omega
        · rw [nothing, parts.2.2, FieldCodec.encodeAll_nil]
    · split at accepted
      · cases accepted
      · split at accepted
        · cases accepted
        · have parts := ofComponents_eq_ok accepted
          have size : payload.length = 4 * (payload.length / 4) := by omega
          refine ⟨parts.1, parts.2.1, ?_⟩
          rw [parts.2.2]
          exact (FieldCodec.number.encodeAll_decodeAll size).symm

theorem ofPayload_eq_error {count dimension : Nat} {payload : List UInt8} {error : Error}
    (refused : ofPayload count dimension payload = .error error) :
    ∃ cause, error = .format cause := by
  unfold ofPayload at refused
  dsimp only at refused
  split at refused
  · cases refused
    exact ⟨_, rfl⟩
  · split at refused
    · split at refused
      · cases refused
        exact ⟨_, rfl⟩
      · exact ofComponents_eq_error refused
    · split at refused
      · cases refused
        exact ⟨_, rfl⟩
      · split at refused
        · cases refused
          exact ⟨_, rfl⟩
        · exact ofComponents_eq_error refused

/-! ## The encoding -/

theorem encode_eq (batch : VectorBatch) :
    batch.encode = LittleEndian.encode 4 batch.count ++
      (LittleEndian.encode 4 batch.dimension ++ FieldCodec.number.encodeAll batch.components) := by
  simp only [encode, fields, List.flatten_cons]
  rfl

def Encodes (batch : VectorBatch) (bytes : List UInt8) : Prop :=
  ∃ sink, batch.write {} = (.ok (), sink) ∧ sink.contents = bytes

theorem write_eq {sink : Sink} (unlimited : sink.room = none) (batch : VectorBatch) :
    batch.write sink =
      if batch.count < fieldLimit then
        if batch.dimension < fieldLimit then (.ok (), sink.afterFields batch.fields)
        else
          (.error (.invalidParameter (.exceedsField "dimension" batch.dimension)),
            sink.afterFields [LittleEndian.encode 4 batch.count])
      else (.error (.invalidParameter (.exceedsField "count" batch.count)), sink) := by
  have afterCount : (sink.afterFields [LittleEndian.encode 4 batch.count]).room = none := unlimited
  have afterHeader : ((sink.afterFields [LittleEndian.encode 4 batch.count]).afterFields
      [LittleEndian.encode 4 batch.dimension]).room = none := unlimited
  rw [write, Sink.writeWord_eq unlimited]
  by_cases countFits : batch.count < fieldLimit
  · rw [if_pos countFits, if_pos countFits]
    dsimp only
    rw [Sink.writeWord_eq afterCount]
    by_cases dimensionFits : batch.dimension < fieldLimit
    · rw [if_pos dimensionFits, if_pos dimensionFits]
      dsimp only
      rw [Sink.writeFields_eq afterHeader, Sink.afterFields_afterFields,
        Sink.afterFields_afterFields]
      rfl
    · rw [if_neg dimensionFits, if_neg dimensionFits]
  · rw [if_neg countFits, if_neg countFits]

theorem encodes_iff {batch : VectorBatch} {bytes : List UInt8} :
    batch.Encodes bytes ↔
      batch.count < fieldLimit ∧ batch.dimension < fieldLimit ∧ bytes = batch.encode := by
  have contents : (Sink.afterFields {} batch.fields).contents = batch.encode := by
    rw [Sink.contents_afterFields]
    rfl
  rw [Encodes, write_eq rfl]
  constructor
  · rintro ⟨sink, written, rfl⟩
    by_cases countFits : batch.count < fieldLimit
    · by_cases dimensionFits : batch.dimension < fieldLimit
      · rw [if_pos countFits, if_pos dimensionFits] at written
        cases written
        exact ⟨countFits, dimensionFits, contents⟩
      · rw [if_pos countFits, if_neg dimensionFits] at written
        cases written
    · rw [if_neg countFits] at written
      cases written
  · rintro ⟨countFits, dimensionFits, rfl⟩
    rw [if_pos countFits, if_pos dimensionFits]
    exact ⟨_, rfl, contents⟩

/-! ## Reading -/

variable {source : Source}

theorem read_of_short (reliable : source.Reliable) (short : source.ahead.length < headerSize)
    (requireNonEmpty : Bool) :
    read source requireNonEmpty = .error (.format (.inputEnds "vector batch header")) := by
  rw [read, reliable.fill_eq, if_neg (Nat.not_le.mpr short)]

theorem read_of_header (reliable : source.Reliable) {count dimension : UInt32}
    {payload : List UInt8}
    (ahead : source.ahead =
      FieldCodec.word.encode count ++ (FieldCodec.word.encode dimension ++ payload))
    (requireNonEmpty : Bool) :
    read source requireNonEmpty =
      if requireNonEmpty ∧ (count.toNat = 0 ∨ dimension.toNat = 0) then
        .error (.format (.emptyBatch count.toNat dimension.toNat))
      else (ofPayload count.toNat dimension.toNat payload).map fun batch =>
        (batch, source.advance source.ahead.length) := by
  have countSize := FieldCodec.word.length_encode count
  have dimensionSize := FieldCodec.word.length_encode dimension
  have headerLength : (FieldCodec.word.encode count ++ FieldCodec.word.encode dimension).length =
      headerSize := by
    rw [List.length_append, countSize, dimensionSize]
    rfl
  rw [← List.append_assoc] at ahead
  have header : source.ahead.take headerSize =
      FieldCodec.word.encode count ++ FieldCodec.word.encode dimension := by
    rw [ahead, List.take_left' headerLength]
  have enough : headerSize ≤ source.ahead.length := by
    rw [ahead, List.length_append, headerLength]
    omega
  have rest : (source.advance headerSize).ahead = payload := by
    rw [Source.ahead_advance, ahead, List.drop_left' headerLength]
  have decodeWord (word : UInt32) :
      LittleEndian.decode (FieldCodec.word.encode word) = word.toNat :=
    LittleEndian.decode_encode word.toNat_lt
  have whole : headerSize + payload.length = source.ahead.length := by
    rw [ahead, List.length_append, headerLength]
  rw [read, reliable.fill_eq, if_pos enough]
  dsimp only
  -- Whatever the header declares, the payload is read to its end before it is judged.
  rw [header, List.take_left' countSize, List.drop_left' countSize, decodeWord, decodeWord,
    (reliable.advance headerSize).readToEnd_eq, rest, Source.advance_advance, whole]
  by_cases refused : requireNonEmpty ∧ (count.toNat = 0 ∨ dimension.toNat = 0)
  · rw [if_pos refused, if_pos refused]
  · rw [if_neg refused, if_neg refused]
    dsimp only
    cases ofPayload count.toNat dimension.toNat payload with
    | error error => rfl
    | ok batch => rfl

theorem exists_header {bytes : List UInt8} (enough : headerSize ≤ bytes.length) :
    ∃ count dimension payload,
      bytes = FieldCodec.word.encode count ++ (FieldCodec.word.encode dimension ++ payload) := by
  have countThere : 4 ≤ bytes.length := Nat.le_trans (by decide) enough
  rcases FieldCodec.word.exists_encode_append countThere with ⟨count, afterCount, rfl⟩
  have dimensionThere : 4 ≤ afterCount.length := by
    rw [List.length_append, FieldCodec.word.length_encode, headerSize] at enough
    omega
  rcases FieldCodec.word.exists_encode_append dimensionThere with ⟨dimension, payload, rfl⟩
  exact ⟨count, dimension, payload, rfl⟩

theorem mul_lt_wordLimit {count dimension : Nat} (countFits : count < fieldLimit)
    (dimensionFits : dimension < fieldLimit) : count * dimension < wordLimit :=
  Nat.mul_lt_mul'' countFits dimensionFits

theorem encodes_of_read (reliable : source.Reliable) {requireNonEmpty : Bool}
    {batch : VectorBatch} {next : Source}
    (accepted : read source requireNonEmpty = .ok (batch, next)) :
    batch.Encodes source.ahead ∧ next = source.advance source.ahead.length ∧
      (requireNonEmpty → 0 < batch.count ∧ 0 < batch.dimension) := by
  by_cases enough : headerSize ≤ source.ahead.length
  · rcases exists_header enough with ⟨count, dimension, payload, ahead⟩
    rw [read_of_header reliable ahead] at accepted
    split at accepted
    · cases accepted
    · rename_i notRefused
      cases judged : ofPayload count.toNat dimension.toNat payload with
      | error error =>
          rw [judged] at accepted
          cases accepted
      | ok found =>
          rw [judged] at accepted
          cases accepted
          rcases ofPayload_eq_ok judged with ⟨sameCount, sameDimension, rfl⟩
          have countFits : batch.count < fieldLimit := sameCount ▸ count.toNat_lt
          have dimensionFits : batch.dimension < fieldLimit := sameDimension ▸ dimension.toNat_lt
          have whole : source.ahead = batch.encode := by
            rw [encode_eq, sameCount, sameDimension]
            exact ahead
          refine ⟨encodes_iff.mpr ⟨countFits, dimensionFits, whole⟩, rfl, ?_⟩
          intro required
          simp only [required, true_and, not_or] at notRefused
          omega
  · rw [read_of_short reliable (Nat.lt_of_not_le enough)] at accepted
    cases accepted

theorem read_of_encodes (reliable : source.Reliable) {requireNonEmpty : Bool}
    {batch : VectorBatch} (encodes : batch.Encodes source.ahead)
    (nonEmpty : requireNonEmpty → 0 < batch.count ∧ 0 < batch.dimension) :
    read source requireNonEmpty = .ok (batch, source.advance source.ahead.length) := by
  rcases encodes_iff.mp encodes with ⟨countFits, dimensionFits, ahead⟩
  have count : (UInt32.ofNat batch.count).toNat = batch.count :=
    UInt32.toNat_ofNat_of_lt' countFits
  have dimension : (UInt32.ofNat batch.dimension).toNat = batch.dimension :=
    UInt32.toNat_ofNat_of_lt' dimensionFits
  have header : source.ahead = FieldCodec.word.encode (UInt32.ofNat batch.count) ++
      (FieldCodec.word.encode (UInt32.ofNat batch.dimension) ++
        FieldCodec.number.encodeAll batch.components) := by
    rw [ahead, encode_eq]
    change _ = LittleEndian.encode 4 _ ++ (LittleEndian.encode 4 _ ++ _)
    rw [count, dimension]
  have notRefused : ¬(requireNonEmpty = true ∧ (batch.count = 0 ∨ batch.dimension = 0)) := by
    rintro ⟨required, empty⟩
    have positive := nonEmpty required
    omega
  rw [read_of_header reliable header, count, dimension, if_neg notRefused,
    ofPayload_of_encodeAll batch (mul_lt_wordLimit countFits dimensionFits)]
  rfl

theorem read_eq_ok_iff (reliable : source.Reliable) {requireNonEmpty : Bool}
    {batch : VectorBatch} {next : Source} :
    read source requireNonEmpty = .ok (batch, next) ↔
      batch.Encodes source.ahead ∧ next = source.advance source.ahead.length ∧
        (requireNonEmpty → 0 < batch.count ∧ 0 < batch.dimension) := by
  constructor
  · exact encodes_of_read reliable
  · rintro ⟨encodes, rfl, nonEmpty⟩
    exact read_of_encodes reliable encodes nonEmpty

theorem read_eq_error (reliable : source.Reliable) {requireNonEmpty : Bool} {error : Error}
    (refused : read source requireNonEmpty = .error error) : ∃ cause, error = .format cause := by
  by_cases enough : headerSize ≤ source.ahead.length
  · rcases exists_header enough with ⟨count, dimension, payload, ahead⟩
    rw [read_of_header reliable ahead] at refused
    split at refused
    · cases refused
      exact ⟨_, rfl⟩
    · cases judged : ofPayload count.toNat dimension.toNat payload with
      | error cause =>
          rw [judged] at refused
          cases refused
          exact ofPayload_eq_error judged
      | ok found =>
          rw [judged] at refused
          cases refused
  · rw [read_of_short reliable (Nat.lt_of_not_le enough)] at refused
    cases refused
    exact ⟨_, rfl⟩

/-- The format in both directions. On a working source, reading succeeds exactly if the whole
input is what writing makes of some batch, which it then answers with; if asked for, the batch
must also have components. Everything else is refused as malformed, and every batch whose shape
fits the header has an encoding, the empty ones included. -/
theorem read_accepts_exactly_encodings (reliable : source.Reliable) :
    (∀ batch next, read source false = .ok (batch, next) ↔
      batch.Encodes source.ahead ∧ next = source.advance source.ahead.length) ∧
    (∀ batch next, read source true = .ok (batch, next) ↔
      read source false = .ok (batch, next) ∧ 0 < batch.count ∧ 0 < batch.dimension) ∧
    (∀ requireNonEmpty error, read source requireNonEmpty = .error error →
      ∃ cause, error = .format cause) ∧
    ∀ batch : VectorBatch, batch.count < fieldLimit → batch.dimension < fieldLimit →
      ∃ bytes, batch.Encodes bytes ∧
        (source.ahead = bytes → ∃ next, read source false = .ok (batch, next)) := by
  refine ⟨?_, ?_, fun _ _ => read_eq_error reliable, ?_⟩
  · intro batch next
    rw [read_eq_ok_iff reliable]
    simp
  · intro batch next
    rw [read_eq_ok_iff reliable, read_eq_ok_iff reliable]
    simp [and_assoc]
  · intro batch countFits dimensionFits
    have encodes := encodes_iff.mpr ⟨countFits, dimensionFits, rfl⟩
    refine ⟨batch.encode, encodes, ?_⟩
    intro ahead
    exact ⟨_, (read_eq_ok_iff reliable).mpr ⟨ahead ▸ encodes, rfl, nofun⟩⟩

def twoVectors : VectorBatch where
  count := 2
  dimension := 1
  components := [{ bits := 0 }, { bits := 0x7fc00001 }]
  length_components := rfl
  count_eq_zero := nofun

theorem read_twoVectors :
    let source : Source := { ahead := twoVectors.encode, piece := some 3 }
    source.Reliable ∧ read source true = .ok (twoVectors, source.advance 16) := by
  intro source
  have reliable : source.Reliable := { neverFails := rfl, delivers := by decide }
  have size : source.ahead.length = 16 := by decide
  have laws := read_accepts_exactly_encodings reliable
  refine ⟨reliable, (laws.2.1 twoVectors _).mpr ⟨(laws.1 twoVectors _).mpr ⟨?_, ?_⟩, ?_⟩⟩
  · exact encodes_iff.mpr ⟨by decide, by decide, rfl⟩
  · rw [size]
  · decide

end VectorBatch

end RangeRecall
