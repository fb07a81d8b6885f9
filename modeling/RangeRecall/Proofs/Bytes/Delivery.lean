import Mathlib.Control.Monad.Basic
import RangeRecall.Proofs.Bytes.Decoder
import RangeRecall.Proofs.Failure
import RangeRecall.Proofs.GroundTruth.Reading
import RangeRecall.Proofs.Vector.Encoding

/-! Vector batches and ground truths from devices of every kind. Both formats are read by decoders,
so what is read depends on the bytes alone, not on the pieces in which they are delivered. A device
that fails where the decoder looks is not mistaken for an input that ends, unless its error says
that the input has ended. -/

namespace RangeRecall

/-! ## The formats as decoders -/

namespace VectorBatch

def decoder (requireNonEmpty : Bool) : Decoder VectorBatch :=
  .exactly headerSize (.format (.inputEnds "vector batch header")) fun header =>
    let count := LittleEndian.decode (header.take 4)
    let dimension := LittleEndian.decode (header.drop 4)
    if requireNonEmpty ∧ (count = 0 ∨ dimension = 0) then
      .fail (.format (.emptyBatch count dimension))
    else .toEnd fun payload => .ofResult (ofPayload count dimension payload)

theorem run_decoder (requireNonEmpty : Bool) (source : Source) :
    (decoder requireNonEmpty).run source = read source requireNonEmpty := by
  rw [decoder, Decoder.run_exactly, read, Source.fill]
  rcases source.readExactly headerSize with error | ⟨header, afterHeader⟩
  · rfl
  · rw [Failure.mapError_ok]
    dsimp only
    split
    · rfl
    · rw [Decoder.run_toEnd]
      rcases afterHeader.readToEnd with _ | ⟨payload, remaining⟩
      · rfl
      · dsimp only
        rw [Decoder.run_ofResult]
        cases ofPayload _ _ payload <;> rfl

end VectorBatch

namespace GroundTruth

def decodeChunks (field : String) (decode : List UInt8 → α) (total remaining : Nat) :
    Decoder (List α) :=
  if remaining = 0 then pure []
  else
    let count := min remaining chunkSize
    .exactly (4 * count) (.format (.truncatedField field (total - remaining) total)) fun bytes => do
      let values ← decodeChunks field decode total (remaining - count)
      return (LittleEndian.groups 4 bytes).map decode ++ values
termination_by remaining
decreasing_by simp only [chunkSize]; omega

def decodeField (field : String) (decode : List UInt8 → α) (total : Nat) : Decoder (List α) :=
  decodeChunks field decode total total

def decoder : Decoder GroundTruth := do
  let counts ← decodeField "query count" wordOf 1
  let thresholds ← decodeField "threshold" Binary32.ofBytes 1
  let queries := (counts.headD 0).toNat
  let threshold := thresholds.headD { bits := 0 }
  let offsets ← decodeField "offsets" wordOf (queries + 1)
  Decoder.ofResult ((checkOffsets offsets).mapError .format)
  let total := announced offsets
  let ids ← decodeField "neighbor ids" wordOf total
  let distances ← decodeField "neighbor distances" Binary32.ofBytes total
  Decoder.ofResult ((ofParts threshold offsets ids distances).mapError .format)

theorem run_decodeChunks (field : String) (decode : List UInt8 → α) (total remaining : Nat)
    (source : Source) :
    (decodeChunks field decode total remaining).run source =
      readChunks field decode total remaining source := by
  induction remaining using Nat.strongRecOn generalizing source with
  | ind remaining induction =>
      rw [decodeChunks, readChunks]
      by_cases nothing : remaining = 0
      · rw [if_pos nothing, if_pos nothing]
        rfl
      · have fewer : remaining - min remaining chunkSize < remaining := by
          simp only [chunkSize]
          omega
        rw [if_neg nothing, if_neg nothing]
        dsimp only
        rw [Decoder.run_exactly, Source.fill]
        rcases source.readExactly (4 * min remaining chunkSize) with error | ⟨bytes, next⟩
        · rw [Failure.mapError_error]
          by_cases atEnd : error.kind = .unexpectedEof
          · simp only [Source.report_of_end atEnd]
          · simp only [Source.report_of_failure atEnd]
        · rw [Failure.mapError_ok]
          dsimp only
          rw [Decoder.run_bind, induction _ fewer]
          rcases readChunks field decode total (remaining - min remaining chunkSize) next with
            _ | ⟨values, last⟩ <;> rfl

theorem run_decodeField (field : String) (decode : List UInt8 → α) (total : Nat)
    (source : Source) :
    (decodeField field decode total).run source = readField field decode total source :=
  run_decodeChunks field decode total total source

theorem run_decoder (source : Source) : decoder.run source = read source := by
  simp only [decoder, Decoder.run_bind, run_decodeField, Decoder.run_ofResult, bind_assoc,
    pure_bind]
  rfl

theorem asksForCounts_decodeField (field : String) (decode : List UInt8 → α) (total : Nat) :
    (decodeField field decode total).AsksForCounts := by
  have chunks (remaining : Nat) :
      (decodeChunks field decode total remaining).AsksForCounts := by
    induction remaining using Nat.strongRecOn with
    | ind remaining induction =>
        rw [decodeChunks]
        split
        · trivial
        · have fewer : remaining - min remaining chunkSize < remaining := by
            simp only [chunkSize]
            omega
          exact fun bytes => (induction _ fewer).bind fun values => trivial
  exact chunks total

theorem asksForCounts : decoder.AsksForCounts :=
  (asksForCounts_decodeField _ _ _).bind fun _ =>
    (asksForCounts_decodeField _ _ _).bind fun _ =>
    (asksForCounts_decodeField _ _ _).bind fun _ =>
    (Decoder.asksForCounts_ofResult _).bind fun _ =>
    (asksForCounts_decodeField _ _ _).bind fun _ =>
    (asksForCounts_decodeField _ _ _).bind fun _ => Decoder.asksForCounts_ofResult _

end GroundTruth

/-! ## Devices of every kind -/

/-- How reading from a device ends, next to reading the same bytes at the same position from a
device that never fails. What decides is which positions the decoder looks at there. -/
structure ReadsAlike (read : Source → Except Error (α × Source)) (decoder : Decoder α)
    (source steady : Source) : Prop where
  observed : (decoder.observe steady).result = read steady
  interrupted_iff : source.failure.kind ≠ .unexpectedEof →
    (read source = .error (.device source.failure) ↔
      source.Interrupts (decoder.observe steady).accesses)
  otherwise : ¬source.Interrupts (decoder.observe steady).accesses →
    (∃ cause, read source = .error (.format cause) ∧ read steady = .error (.format cause)) ∨
      ∃ value count, read source = .ok (value, source.advance count) ∧
        read steady = .ok (value, steady.advance count)
  bytewise : steady.piece = some 1 →
    (source.Interrupts (decoder.observe steady).accesses ↔
      ∃ limit, source.failsAt = some limit ∧
        ∃ access ∈ (decoder.observe steady).accesses, limit ≤ access.position)

theorem readsAlike {read : Source → Except Error (α × Source)} {decoder : Decoder α}
    {source steady : Source} (steadied : source.SteadiedBy steady)
    (runs : ∀ device, decoder.run device = read device)
    (malformed : ∀ error, read steady = .error error → ∃ cause, error = .format cause) :
    ReadsAlike read decoder source steady := by
  have otherwise : ¬source.Interrupts (decoder.observe steady).accesses →
      (∃ cause, read source = .error (.format cause) ∧ read steady = .error (.format cause)) ∨
        ∃ value count, read source = .ok (value, source.advance count) ∧
          read steady = .ok (value, steady.advance count) := by
    intro uninterrupted
    have agrees := decoder.agrees_of_not_interrupts steadied uninterrupted
    rw [runs, runs] at agrees
    rcases agrees with ⟨error, refused, steadyRefused⟩ | accepted
    · rcases malformed error steadyRefused with ⟨cause, rfl⟩
      exact .inl ⟨cause, refused, steadyRefused⟩
    · exact .inr accepted
  constructor
  · exact runs steady
  · intro failure
    constructor
    · intro lost
      refine Classical.byContradiction fun uninterrupted => ?_
      rcases otherwise uninterrupted with ⟨cause, refused, _⟩ | ⟨value, count, accepted, _⟩
      · rw [lost] at refused
        cases refused
      · rw [lost] at accepted
        cases accepted
    · intro interrupted
      rcases decoder.run_of_interrupts steadied interrupted with ⟨error, refused, own | atEnd⟩
      · rw [← runs, refused, own]
      · exact absurd atEnd failure
  · exact otherwise
  · intro single
    -- An access of one byte at most ends where it begins.
    have small := decoder.small_observe steadied.reliable single
    refine exists_congr fun limit => and_congr_right fun _ => exists_congr fun access => ?_
    refine and_congr_right fun member => ?_
    have one := small access member
    rw [Access.last]
    omega

/-- How reading ends on a device whose failures say that the input has ended. Where a number of
bytes is asked for, that is an input that ends where the device fails. Where all that are left are
asked for, it is a failure of the device. -/
structure TakesFailureForEnd (source steady : Source) : Prop where
  header : source.Interrupts (steady.observeExactly VectorBatch.headerSize).accesses →
    ∀ requireNonEmpty, VectorBatch.read source requireNonEmpty =
      .error (.format (.inputEnds "vector batch header"))
  payload : ¬source.Interrupts (steady.observeExactly VectorBatch.headerSize).accesses →
    ∀ requireNonEmpty,
      source.Interrupts ((VectorBatch.decoder requireNonEmpty).observe steady).accesses →
        VectorBatch.read source requireNonEmpty = .error (.device source.failure)
  truth : ∀ limit, source.failsAt = some limit →
    Reach (GroundTruth.decoder.observe steady).accesses limit →
      ∃ cause, GroundTruth.read source = .error (.format cause) ∧
        GroundTruth.read (source.endingAt limit) = .error (.format cause)

theorem takesFailureForEnd {source steady : Source} (steadied : source.SteadiedBy steady)
    (atEnd : source.failure.kind = .unexpectedEof) : TakesFailureForEnd source steady where
  header interrupted requireNonEmpty := by
    rw [VectorBatch.read, Source.fill, Source.readExactly_eq steadied.delivers,
      if_pos ((steadied.interrupts_exactly _).mp interrupted), Failure.mapError_error,
      Source.report_of_end atEnd]
  payload uninterrupted requireNonEmpty interrupted := by
    have works := mt (steadied.interrupts_exactly VectorBatch.headerSize).mpr uninterrupted
    rw [VectorBatch.decoder, Decoder.observe, Source.result_observeExactly,
      steadied.reliable.readExactly_eq, steadied.ahead] at interrupted
    rw [← VectorBatch.run_decoder, VectorBatch.decoder, Decoder.run_exactly,
      Source.readExactly_eq steadied.delivers, if_neg works]
    by_cases enough : VectorBatch.headerSize ≤ source.ahead.length
    · -- The header was not interrupted, so the reading of the payload must have been.
      rw [if_pos enough] at interrupted ⊢
      simp only [Source.interrupts_append, uninterrupted, false_or] at interrupted
      dsimp only
      split at interrupted
      · exact absurd interrupted (by simp [Decoder.observe])
      · rw [if_neg ‹_›]
        refine Decoder.run_toEnd_of_interrupts (steadied.advance _) ?_
        simpa [Decoder.observe, (steadied.reliable.advance _).readToEnd_eq] using interrupted
    · rw [if_neg enough] at interrupted
      exact absurd interrupted uninterrupted
  truth limit fails reached := by
    have alike :=
      Decoder.run_of_reported_end GroundTruth.asksForCounts steadied.delivers fails atEnd
    have reliable := Source.endingAt_reliable steadied.delivers limit
    rcases Decoder.run_of_interrupts steadied ⟨limit, fails, reached⟩ with ⟨error, refused, _⟩
    rw [refused, GroundTruth.run_decoder] at alike
    rw [GroundTruth.run_decoder] at refused
    rcases alike with ⟨_, same, refusedThere⟩ | ⟨_, _, accepted, _⟩
    · cases same
      rcases (GroundTruth.read_eq_error_iff reliable).mp refusedThere with ⟨cause, rfl, _⟩
      exact ⟨cause, refused, refusedThere⟩
    · cases accepted

end RangeRecall
