import RangeRecall.GroundTruth.Format
import RangeRecall.Proofs.Bytes.Device
import RangeRecall.Proofs.Bytes.FieldCodec

/-! What ground truths look like as bytes. Arrays are read in chunks, but the chunks leave no
trace: a field is read if all of its bytes are there, and only the error of a field that ends
early shows how far the whole chunks went. -/

namespace RangeRecall

namespace GroundTruth

open FieldCodec (word number)
open Source (Reads Stops)

variable {source : Source} (codec : FieldCodec α)

/-! ## Fields of many values -/

/-- How many of the values that are there a reader has seen when their field ends early: those
in whole chunks. -/
def presentValues (bytes : Nat) : Nat :=
  bytes / (4 * chunkSize) * chunkSize

theorem presentValues_of_short {bytes : Nat} (short : bytes < 4 * chunkSize) :
    presentValues bytes = 0 := by
  rw [presentValues, Nat.div_eq_of_lt short, Nat.zero_mul]

theorem presentValues_add (bytes : Nat) :
    presentValues (4 * chunkSize + bytes) = chunkSize + presentValues bytes := by
  have positive : 0 < 4 * chunkSize := by decide
  rw [presentValues, Nat.add_div_left _ positive, Nat.succ_mul, Nat.add_comm, presentValues]

theorem presentValues_after_chunk {bytes total remaining : Nat} (within : remaining ≤ total)
    (enough : 4 * min remaining chunkSize ≤ bytes) (missing : bytes < 4 * remaining) :
    total - (remaining - min remaining chunkSize) +
        presentValues (bytes - 4 * min remaining chunkSize) =
      total - remaining + presentValues bytes := by
  have full : min remaining chunkSize = chunkSize := by omega
  have split : 4 * chunkSize + (bytes - 4 * chunkSize) = bytes := by omega
  have present := presentValues_add (bytes - 4 * chunkSize)
  rw [split] at present
  rw [full, present]
  omega

theorem readChunks_step (reliable : source.Reliable) (field : String) (total : Nat)
    {remaining : Nat} (some : remaining ≠ 0) :
    readChunks field codec.decode total remaining source =
      if 4 * min remaining chunkSize ≤ source.ahead.length then
        (readChunks field codec.decode total (remaining - min remaining chunkSize)
          (source.advance (4 * min remaining chunkSize))).map fun (values, last) =>
            (codec.decodeAll (source.ahead.take (4 * min remaining chunkSize)) ++ values, last)
      else .error (.format (.truncatedField field (total - remaining) total)) := by
  rw [readChunks, if_neg some]
  dsimp only
  rw [reliable.fill_eq]
  by_cases enough : 4 * min remaining chunkSize ≤ source.ahead.length
  · rw [if_pos enough, if_pos enough]
    dsimp only
    cases readChunks field codec.decode total (remaining - min remaining chunkSize)
      (source.advance (4 * min remaining chunkSize)) <;> rfl
  · rw [if_neg enough, if_neg enough]

theorem readChunks_eq (reliable : source.Reliable) (field : String) {total remaining : Nat}
    (within : remaining ≤ total) :
    readChunks field codec.decode total remaining source =
      if 4 * remaining ≤ source.ahead.length then
        .ok (codec.decodeAll (source.ahead.take (4 * remaining)), source.advance (4 * remaining))
      else
        .error (.format (.truncatedField field
          (total - remaining + presentValues source.ahead.length) total)) := by
  induction remaining using Nat.strongRecOn generalizing source with
  | ind remaining induction =>
      by_cases nothing : remaining = 0
      · have empty : codec.decodeAll [] = [] := codec.decodeAll_of_short (by decide)
        rw [readChunks]
        simp [nothing, empty]
      · have chunk : 0 < min remaining chunkSize := by
          simp only [chunkSize]
          omega
        rw [readChunks_step codec reliable field total nothing]
        by_cases enough : 4 * min remaining chunkSize ≤ source.ahead.length
        · -- The induction is on the values that remain after this chunk.
          have later := induction (remaining - min remaining chunkSize) (by omega)
            (reliable.advance (4 * min remaining chunkSize)) (by omega)
          have whole : 4 * min remaining chunkSize + 4 * (remaining - min remaining chunkSize) =
              4 * remaining := by omega
          rw [if_pos enough, later, Source.ahead_advance, List.length_drop, Source.advance_advance,
            whole]
          by_cases allThere : 4 * remaining ≤ source.ahead.length
          · have size : (source.ahead.take (4 * min remaining chunkSize)).length =
                4 * min remaining chunkSize := List.length_take_of_le enough
            rw [if_pos (by omega), if_pos allThere, ← whole, List.take_add,
              codec.decodeAll_append size]
            rfl
          · have counted := presentValues_after_chunk within enough (Nat.lt_of_not_le allThere)
            rw [if_neg (by omega), if_neg allThere, counted]
            rfl
        · have missing : ¬4 * remaining ≤ source.ahead.length := by omega
          have none := presentValues_of_short (show source.ahead.length < 4 * chunkSize by omega)
          rw [if_neg enough, if_neg missing, none, Nat.add_zero]

theorem readField_eq (reliable : source.Reliable) (field : String) (total : Nat) :
    readField field codec.decode total source =
      if 4 * total ≤ source.ahead.length then
        .ok (codec.decodeAll (source.ahead.take (4 * total)), source.advance (4 * total))
      else
        .error (.format (.truncatedField field (presentValues source.ahead.length) total)) := by
  rw [readField, readChunks_eq codec reliable field (Nat.le_refl total), Nat.sub_self,
    Nat.zero_add]

theorem readField_reads (field : String) (values : List α) :
    Reads (readField field codec.decode values.length) (codec.encodeAll values) values := by
  intro source rest reliable ahead
  have size := codec.length_encodeAll values
  have enough : 4 * values.length ≤ source.ahead.length := by
    rw [ahead, List.length_append, size]
    omega
  rw [readField_eq codec reliable, if_pos enough, ahead, List.take_left' size,
    codec.decodeAll_encodeAll, size]

theorem readField_stops {bytes : List UInt8} {total : Nat} (field : String)
    (short : bytes.length < 4 * total) :
    Stops (readField field codec.decode total) bytes
      (.format (.truncatedField field (presentValues bytes.length) total)) := by
  intro source reliable ahead
  rw [readField_eq codec reliable, ahead, if_neg (Nat.not_le.mpr short)]

/-! ## The encoding -/

theorem length_offsets (truth : GroundTruth) : truth.offsets.length = truth.queryCount + 1 := by
  have head := truth.rowOffsets.1
  cases offsets : truth.offsets with
  | nil =>
      rw [offsets] at head
      cases head
  | cons first rest => simp [queryCount, offsets]

theorem encode_eq (truth : GroundTruth) :
    truth.encode = LittleEndian.encode 4 truth.queryCount ++
      (number.encode truth.threshold ++ (word.encodeAll truth.offsets ++
        (word.encodeAll truth.neighborIds ++ number.encodeAll truth.neighborDistances))) := by
  simp only [encode, fields, List.cons_append, List.flatten_cons, List.flatten_append,
    List.append_assoc]
  rfl

def Encodes (truth : GroundTruth) (bytes : List UInt8) : Prop :=
  ∃ sink, truth.write {} = (.ok (), sink) ∧ sink.contents = bytes

theorem write_eq {sink : Sink} (unlimited : sink.room = none) (truth : GroundTruth) :
    truth.write sink =
      if truth.queryCount < fieldLimit then (.ok (), sink.afterFields truth.fields)
      else (.error (.invalidParameter (.exceedsField "query count" truth.queryCount)), sink) := by
  rw [write, Sink.writeWord_eq unlimited]
  by_cases fits : truth.queryCount < fieldLimit
  · have others := Sink.writeFields_eq
      (show (sink.afterFields [LittleEndian.encode 4 truth.queryCount]).room = none from unlimited)
      (truth.fields.drop 1)
    rw [if_pos fits, if_pos fits]
    dsimp only
    rw [others, Sink.afterFields_afterFields]
    rfl
  · rw [if_neg fits, if_neg fits]

theorem encodes_iff {truth : GroundTruth} {bytes : List UInt8} :
    truth.Encodes bytes ↔ truth.queryCount < fieldLimit ∧ bytes = truth.encode := by
  have contents : (Sink.afterFields {} truth.fields).contents = truth.encode := by
    rw [Sink.contents_afterFields]
    rfl
  rw [Encodes, write_eq rfl]
  constructor
  · rintro ⟨sink, written, rfl⟩
    by_cases fits : truth.queryCount < fieldLimit
    · rw [if_pos fits] at written
      cases written
      exact ⟨fits, contents⟩
    · rw [if_neg fits] at written
      cases written
  · rintro ⟨fits, rfl⟩
    rw [if_pos fits]
    exact ⟨_, rfl, contents⟩

def writeMany : List GroundTruth → Sink → Except Error Unit × Sink
  | [], sink => (.ok (), sink)
  | truth :: rest, sink =>
    match truth.write sink with
    | (.ok (), next) => writeMany rest next
    | (.error error, next) => (.error error, next)

theorem writeMany_eq {truths : List GroundTruth}
    (fit : ∀ truth ∈ truths, truth.queryCount < fieldLimit) {sink : Sink}
    (unlimited : sink.room = none) :
    writeMany truths sink = (.ok (), sink.afterFields (truths.flatMap fields)) := by
  induction truths generalizing sink with
  | nil => rfl
  | cons truth rest induction =>
      have first := write_eq unlimited truth
      rw [if_pos (fit truth List.mem_cons_self)] at first
      have others : writeMany rest (sink.afterFields truth.fields) =
          (.ok (), (sink.afterFields truth.fields).afterFields (rest.flatMap fields)) :=
        induction (fun other member => fit other (List.mem_cons_of_mem _ member)) unlimited
      rw [writeMany, first]
      dsimp only
      rw [others, Sink.afterFields_afterFields, List.flatMap_cons]

end GroundTruth

end RangeRecall
