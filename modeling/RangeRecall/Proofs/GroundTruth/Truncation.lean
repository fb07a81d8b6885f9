import RangeRecall.Proofs.GroundTruth.Reading

/-! Inputs that end inside a field. The error names the field and the number of values that it
should have, and beside it the number of values in the chunks that were read whole: less than a
chunk below the number of values that are there, and equal to it only at the end of a chunk. -/

namespace RangeRecall

namespace GroundTruth

open FieldCodec (word number)

/-- A field of `expected` values begins where the input goes on with the rest: all fields before
it are there, and the offsets are in order if they are among them. -/
inductive Reaches : (input : List UInt8) → (field : String) → (expected : Nat) →
    (rest : List UInt8) → Prop
  | queryCount (rest : List UInt8) : Reaches rest "query count" 1 rest
  | threshold (count : UInt32) (rest : List UInt8) :
      Reaches (word.encode count ++ rest) "threshold" 1 rest
  | offsets (count : UInt32) (threshold : Binary32) (rest : List UInt8) :
      Reaches (headed count threshold rest) "offsets" (count.toNat + 1) rest
  | neighborIds {count : UInt32} {offsets : List UInt32} {total : Nat}
      (complete : offsets.length = count.toNat + 1) (shape : RowOffsets offsets total)
      (threshold : Binary32) (rest : List UInt8) :
      Reaches (headed count threshold (word.encodeAll offsets ++ rest)) "neighbor ids" total rest
  | neighborDistances {count : UInt32} {offsets ids : List UInt32}
      (complete : offsets.length = count.toNat + 1) (shape : RowOffsets offsets ids.length)
      (threshold : Binary32) (rest : List UInt8) :
      Reaches (headed count threshold (word.encodeAll offsets ++ (word.encodeAll ids ++ rest)))
        "neighbor distances" ids.length rest

/-! ## Counted values -/

def inWholeChunks (values : Nat) : Nat :=
  values / chunkSize * chunkSize

theorem presentValues_eq (bytes : Nat) : presentValues bytes = inWholeChunks (bytes / 4) := by
  rw [presentValues, inWholeChunks, Nat.div_div_eq_div_mul]

theorem inWholeChunks_le (values : Nat) : inWholeChunks values ≤ values :=
  Nat.div_mul_le_self values chunkSize

theorem lt_inWholeChunks_add (values : Nat) : values < inWholeChunks values + chunkSize := by
  have positive : 0 < chunkSize := by decide
  exact Nat.lt_div_mul_add positive

theorem inWholeChunks_eq_iff {values : Nat} :
    inWholeChunks values = values ↔ chunkSize ∣ values :=
  Nat.dvd_iff_div_mul_eq values chunkSize |>.symm

/-! ## Truncated fields -/

variable {field : String} {expected : Nat} {rest : List UInt8}

theorem Reaches.defect {input : List UInt8} (reached : Reaches input field expected rest)
    (short : rest.length < 4 * expected) :
    Defect input (.truncatedField field (inWholeChunks (rest.length / 4)) expected) := by
  rw [← presentValues_eq]
  have single (tooShort : rest.length < 4 * 1) : presentValues rest.length = 0 :=
    presentValues_of_short (Nat.lt_trans tooShort (by decide))
  cases reached with
  | queryCount =>
      rw [single short]
      exact .queryCount short
  | threshold count =>
      rw [single short]
      exact .threshold short
  | offsets count threshold => exact .offsets short
  | neighborIds complete shape threshold => exact .neighborIds complete shape short
  | neighborDistances complete shape threshold => exact .neighborDistances complete shape short

theorem Defect.reaches {input : List UInt8} {present : Nat}
    (defect : Defect input (.truncatedField field present expected)) :
    ∃ rest, Reaches input field expected rest ∧ rest.length < 4 * expected ∧
      present = inWholeChunks (rest.length / 4) := by
  have single {bytes : List UInt8} (short : bytes.length < 4) :
      0 = inWholeChunks (bytes.length / 4) := by
    rw [Nat.div_eq_of_lt short]
    rfl
  cases defect with
  | queryCount short => exact ⟨_, .queryCount _, short, single short⟩
  | threshold short => exact ⟨_, .threshold _ _, short, single short⟩
  | offsets short => exact ⟨_, .offsets _ _ _, short, presentValues_eq _⟩
  | neighborIds complete shape short =>
      exact ⟨_, .neighborIds complete shape _ _, short, presentValues_eq _⟩
  | neighborDistances complete shape short =>
      exact ⟨_, .neighborDistances complete shape _ _, short, presentValues_eq _⟩

theorem message_truncatedField (field : String) (present expected : Nat) :
    (Error.format (.truncatedField field present expected)).message =
      "format error: input ends while reading " ++ field ++ ": " ++ Decimal.naturalText present ++
        " of " ++ Decimal.naturalText expected ++ " values present" := by
  have opening : "format error: input ends while reading " =
      "format error: " ++ "input ends while reading " := rfl
  change "format error: " ++ ("input ends while reading " ++ field ++ ": " ++
    Decimal.naturalText present ++ " of " ++ Decimal.naturalText expected ++
      " values present") = _
  rw [opening]
  simp only [String.append_assoc]

variable {source : Source}

/-- An input that ends inside a field is refused with the name and the size of the field. The
number of values said to be present counts whole chunks only, so it is right exactly if the values
that are there fill their chunks. -/
theorem truncation_counts_whole_chunks (reliable : source.Reliable) :
    (∀ field present expected,
      read source = .error (.format (.truncatedField field present expected)) ↔
        ∃ rest, Reaches source.ahead field expected rest ∧ rest.length < 4 * expected ∧
          present = inWholeChunks (rest.length / 4)) ∧
    ∀ field expected rest, Reaches source.ahead field expected rest →
      rest.length < 4 * expected →
        let complete := rest.length / 4
        ∃ error present, read source = .error error ∧
          error.message = "format error: input ends while reading " ++ field ++ ": " ++
            Decimal.naturalText present ++ " of " ++ Decimal.naturalText expected ++
            " values present" ∧
          present ≤ complete ∧ complete < present + chunkSize ∧
          (present = complete ↔ chunkSize ∣ complete) := by
  constructor
  · intro field present expected
    rw [read_eq_error_iff reliable]
    constructor
    · rintro ⟨cause, same, defect⟩
      exact (Error.format.inj same ▸ defect).reaches
    · rintro ⟨rest, reached, short, rfl⟩
      exact ⟨_, rfl, reached.defect short⟩
  · intro field expected rest reached short complete
    refine ⟨_, inWholeChunks complete,
      (read_eq_error_iff reliable).mpr ⟨_, rfl, reached.defect short⟩,
      message_truncatedField _ _ _, inWholeChunks_le complete, lt_inWholeChunks_add complete,
      inWholeChunks_eq_iff⟩

theorem two_of_three_offsets_uncounted :
    let source := Source.ofBytes [2, 0, 0, 0, 0, 0, 0x48, 0x43, 0, 0, 0, 0, 2, 0, 0, 0]
    source.Reliable ∧
      Reaches source.ahead "offsets" 3 [0, 0, 0, 0, 2, 0, 0, 0] ∧
      ([0, 0, 0, 0, 2, 0, 0, 0] : List UInt8).length / 4 = 2 ∧
      ∃ error, read source = .error error ∧
        error.message =
          "format error: input ends while reading offsets: 0 of 3 values present" := by
  intro source
  have reliable : source.Reliable := Source.ofBytes_reliable _
  have reached : Reaches source.ahead "offsets" 3 [0, 0, 0, 0, 2, 0, 0, 0] :=
    .offsets 2 ⟨0x43480000⟩ _
  obtain ⟨truncated, tells⟩ := truncation_counts_whole_chunks reliable
  have refused := (truncated "offsets" 0 3).mpr ⟨_, reached, by decide, by decide⟩
  refine ⟨reliable, reached, by decide, _, refused, ?_⟩
  rw [message_truncatedField]
  decide

end GroundTruth

end RangeRecall
