import RangeRecall.Proofs.Bytes.FieldCodec
import RangeRecall.Result.Container

/-! Headers of result files, exactly. A header with the right magic bytes is read back as it was
written, and the first bytes of an input that is accepted are the writing of what was read. -/

namespace RangeRecall

theorem PayloadKind.ofCode?_code (kind : PayloadKind) : ofCode? kind.code = some kind := by
  cases kind <;> rfl

theorem PayloadKind.code_of_ofCode? {code : Nat} {kind : PayloadKind}
    (known : ofCode? code = some kind) : kind.code = code := by
  unfold ofCode? at known
  split at known
  · cases known
    rfl
  · cases known
    rfl
  · cases known

theorem PayloadKind.code_lt (kind : PayloadKind) : kind.code < LittleEndian.capacity 4 := by
  cases kind <;> decide

namespace ResultHeader

/-! ## Words -/

theorem wordAt_encode {before : List UInt8} {position : Nat} (place : before.length = position)
    {word : Nat} (fits : word < LittleEndian.capacity 4) (after : List UInt8) :
    wordAt (before ++ LittleEndian.encode 4 word ++ after) position = word := by
  rw [wordAt, List.append_assoc, List.drop_left' place,
    List.take_left' (LittleEndian.length_encode 4 word), LittleEndian.decode_encode fits]

theorem length_wordBytes {bytes : List UInt8} {position : Nat}
    (inside : position + 4 ≤ bytes.length) : ((bytes.drop position).take 4).length = 4 := by
  rw [List.length_take, List.length_drop]
  omega

theorem encode_wordAt {bytes : List UInt8} {position : Nat}
    (inside : position + 4 ≤ bytes.length) :
    LittleEndian.encode 4 (wordAt bytes position) = (bytes.drop position).take 4 := by
  have encoded := LittleEndian.encode_decode ((bytes.drop position).take 4)
  rwa [length_wordBytes inside] at encoded

/-! ## Headers -/

variable {header : ResultHeader}

theorem length_magic (right : header.magic = fileMagic) : header.magic.length = 8 := by
  rw [right]
  rfl

theorem length_encode (right : header.magic = fileMagic) : header.encode.length = size := by
  simp only [encode, List.length_append, length_magic right, LittleEndian.length_encode, size]

theorem decode_encode (right : header.magic = fileMagic) : decode header.encode = .ok header := by
  have magicSize := length_magic right
  have enough : ¬header.encode.length < size := by
    rw [length_encode right]
    exact Nat.lt_irrefl size
  have magic : header.encode.take 8 = header.magic := by
    simp only [encode, List.append_assoc]
    exact List.take_left' magicSize
  have version : wordAt header.encode 8 = header.version.toNat := by
    simp only [encode, List.append_assoc]
    rw [← List.append_assoc]
    exact wordAt_encode magicSize header.version.toNat_lt _
  have kind : wordAt header.encode 12 = header.kind.code := by
    simp only [encode]
    rw [List.append_assoc _ _ (LittleEndian.encode 4 header.checksum.toNat)]
    refine wordAt_encode ?_ header.kind.code_lt _
    rw [List.length_append, magicSize, LittleEndian.length_encode]
  have flags : wordAt header.encode 16 = header.flags.toNat := by
    refine wordAt_encode ?_ header.flags.toNat_lt _
    simp only [List.length_append, magicSize, LittleEndian.length_encode]
  have checksum : wordAt header.encode 20 = header.checksum.toNat := by
    rw [← List.append_nil header.encode]
    refine wordAt_encode ?_ header.checksum.toNat_lt []
    simp only [List.length_append, magicSize, LittleEndian.length_encode]
  have known : PayloadKind.ofCode? (wordAt header.encode 12) = some header.kind := by
    rw [kind, PayloadKind.ofCode?_code]
  rw [decode, if_neg enough, magic, if_neg (fun wrong => wrong right), known, version, flags,
    checksum]
  simp only [UInt32.ofNat_toNat]

theorem eq_of_decode {bytes : List UInt8} (accepted : decode bytes = .ok header) :
    size ≤ bytes.length ∧ bytes.take 8 = fileMagic ∧ header.magic = bytes.take 8 ∧
      header.version = UInt32.ofNat (wordAt bytes 8) ∧ header.kind.code = wordAt bytes 12 ∧
      header.flags = UInt32.ofNat (wordAt bytes 16) ∧
      header.checksum = UInt32.ofNat (wordAt bytes 20) := by
  unfold decode at accepted
  split at accepted
  · cases accepted
  · rename_i enough
    split at accepted
    · cases accepted
    · rename_i right
      split at accepted
      · cases accepted
      · rename_i kind known
        cases accepted
        exact ⟨Nat.le_of_not_lt enough, Decidable.not_not.mp right, rfl, rfl,
          PayloadKind.code_of_ofCode? known, rfl, rfl⟩

theorem encode_of_decode {bytes : List UInt8} (accepted : decode bytes = .ok header) :
    header.encode = bytes.take size := by
  rcases eq_of_decode accepted with ⟨enough, -, magic, version, kind, flags, checksum⟩
  simp only [size] at enough
  have word {position : Nat} (inside : position + 4 ≤ 24) :
      LittleEndian.encode 4 (UInt32.ofNat (wordAt bytes position)).toNat =
        (bytes.drop position).take 4 :=
    FieldCodec.word_encode_decode _ (length_wordBytes (Nat.le_trans inside enough))
  have kindWord : LittleEndian.encode 4 header.kind.code = (bytes.drop 12).take 4 := by
    rw [kind]
    exact encode_wordAt (Nat.le_trans (by decide) enough)
  calc
    header.encode = bytes.take 8 ++ (bytes.drop 8).take 4 ++ (bytes.drop 12).take 4 ++
        (bytes.drop 16).take 4 ++ (bytes.drop 20).take 4 := by
      rw [encode, magic, version, kindWord, flags, checksum, word (by decide), word (by decide),
        word (by decide)]
    _ = bytes.take size := by
      rw [← List.take_add, ← List.take_add, ← List.take_add, ← List.take_add]
      rfl

/-! ## Headers of new files -/

theorem verify_new (kind : PayloadKind) (checksum : UInt32) :
    (new kind checksum).verify kind = .ok () := by
  cases kind <;> rfl

theorem verify_new_of_ne {kind expected : PayloadKind} (other : kind ≠ expected)
    (checksum : UInt32) :
    (new kind checksum).verify expected = .error (.wrongKind expected kind) := by
  have current : ¬currentVersion < (new kind checksum).version.toNat := Nat.lt_irrefl 1
  have differs : (new kind checksum).kind ≠ expected := other
  rw [verify, if_neg current, if_pos differs]
  rfl

end ResultHeader

end RangeRecall
