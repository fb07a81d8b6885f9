import RangeRecall.Bytes.Field

/-! Values that are stored in four bytes each. Encoding and decoding are inverse to each other for
one value, and therefore for a sequence of values that stand one after another. -/

namespace RangeRecall

namespace LittleEndian

theorem groups_of_short {width : Nat} {bytes : List UInt8} (short : bytes.length < width) :
    groups width bytes = [] := by
  rw [groups, if_neg]
  omega

theorem groups_append {width : Nat} {first : List UInt8} (size : first.length = width)
    (positive : 0 < width) (rest : List UInt8) :
    groups width (first ++ rest) = first :: groups width rest := by
  have enough : 0 < width ∧ width ≤ (first ++ rest).length := by
    rw [List.length_append]
    omega
  rw [groups, if_pos enough, List.take_left' size, List.drop_left' size]

end LittleEndian

/-- A bijection between values and four-byte fields. -/
structure FieldCodec (α : Type) where
  encode : α → List UInt8
  decode : List UInt8 → α
  length_encode : ∀ value, (encode value).length = 4
  decode_encode : ∀ value, decode (encode value) = value
  encode_decode : ∀ bytes, bytes.length = 4 → encode (decode bytes) = bytes

namespace FieldCodec

theorem word_decode_encode (word : UInt32) :
    UInt32.ofNat (LittleEndian.decode (LittleEndian.encode 4 word.toNat)) = word := by
  have fits : word.toNat < LittleEndian.capacity 4 := word.toNat_lt
  rw [LittleEndian.decode_encode fits, UInt32.ofNat_toNat]

theorem word_encode_decode (bytes : List UInt8) (size : bytes.length = 4) :
    LittleEndian.encode 4 (UInt32.ofNat (LittleEndian.decode bytes)).toNat = bytes := by
  have bound := LittleEndian.decode_lt bytes
  rw [size] at bound
  have whole := LittleEndian.encode_decode bytes
  rw [size] at whole
  rw [UInt32.toNat_ofNat_of_lt' bound, whole]

def word : FieldCodec UInt32 where
  encode word := LittleEndian.encode 4 word.toNat
  decode bytes := UInt32.ofNat (LittleEndian.decode bytes)
  length_encode word := LittleEndian.length_encode 4 word.toNat
  decode_encode := word_decode_encode
  encode_decode := word_encode_decode

def number : FieldCodec Binary32 where
  encode := Binary32.toBytes
  decode := Binary32.ofBytes
  length_encode number := LittleEndian.length_encode 4 number.bits.toNat
  decode_encode number := congrArg Binary32.mk (word_decode_encode number.bits)
  encode_decode := word_encode_decode

variable (codec : FieldCodec α)

def encodeAll (values : List α) : List UInt8 :=
  (values.map codec.encode).flatten

def decodeAll (bytes : List UInt8) : List α :=
  (LittleEndian.groups 4 bytes).map codec.decode

@[simp] theorem encodeAll_nil : codec.encodeAll [] = [] := rfl

@[simp] theorem encodeAll_cons (value : α) (rest : List α) :
    codec.encodeAll (value :: rest) = codec.encode value ++ codec.encodeAll rest := rfl

@[simp] theorem length_encodeAll (values : List α) :
    (codec.encodeAll values).length = 4 * values.length := by
  induction values with
  | nil => rfl
  | cons value rest induction =>
      rw [encodeAll_cons, List.length_append, codec.length_encode, induction, List.length_cons]
      omega

theorem decodeAll_of_short {bytes : List UInt8} (short : bytes.length < 4) :
    codec.decodeAll bytes = [] := by
  rw [decodeAll, LittleEndian.groups_of_short short, List.map_nil]

theorem decodeAll_append_of_length {first : List UInt8} (size : first.length = 4)
    (rest : List UInt8) :
    codec.decodeAll (first ++ rest) = codec.decode first :: codec.decodeAll rest := by
  rw [decodeAll, LittleEndian.groups_append size (by decide), List.map_cons, ← decodeAll]

theorem decodeAll_encodeAll_append (values : List α) (rest : List UInt8) :
    codec.decodeAll (codec.encodeAll values ++ rest) = values ++ codec.decodeAll rest := by
  induction values with
  | nil => rfl
  | cons value others induction =>
      rw [encodeAll_cons, List.append_assoc,
        codec.decodeAll_append_of_length (codec.length_encode value), codec.decode_encode,
        induction, List.cons_append]

@[simp] theorem decodeAll_encodeAll (values : List α) :
    codec.decodeAll (codec.encodeAll values) = values := by
  have nothing : codec.decodeAll [] = [] := codec.decodeAll_of_short (by decide)
  have whole := codec.decodeAll_encodeAll_append values []
  rwa [List.append_nil, nothing, List.append_nil] at whole

theorem exists_encodeAll {bytes : List UInt8} {count : Nat} (size : bytes.length = 4 * count) :
    ∃ values, values.length = count ∧ codec.encodeAll values = bytes := by
  induction count generalizing bytes with
  | zero => exact ⟨[], rfl, (List.eq_nil_of_length_eq_zero size).symm⟩
  | succ count induction =>
      have restSize : (bytes.drop 4).length = 4 * count := by
        rw [List.length_drop]
        omega
      rcases induction restSize with ⟨rest, length, encoded⟩
      have firstSize : (bytes.take 4).length = 4 := by
        rw [List.length_take]
        omega
      refine ⟨codec.decode (bytes.take 4) :: rest, congrArg Nat.succ length, ?_⟩
      rw [encodeAll_cons, codec.encode_decode _ firstSize, encoded, List.take_append_drop]

theorem exists_encodeAll_append {bytes : List UInt8} {count : Nat}
    (enough : 4 * count ≤ bytes.length) :
    ∃ values rest, values.length = count ∧ bytes = codec.encodeAll values ++ rest := by
  have size : (bytes.take (4 * count)).length = 4 * count := by
    rw [List.length_take]
    omega
  rcases codec.exists_encodeAll size with ⟨values, length, encoded⟩
  exact ⟨values, bytes.drop (4 * count), length, by rw [encoded, List.take_append_drop]⟩

theorem exists_encode_append {bytes : List UInt8} (enough : 4 ≤ bytes.length) :
    ∃ value rest, bytes = codec.encode value ++ rest := by
  have size : (bytes.take 4).length = 4 := by
    rw [List.length_take]
    omega
  exact ⟨codec.decode (bytes.take 4), bytes.drop 4, by
    rw [codec.encode_decode _ size, List.take_append_drop]⟩

theorem encodeAll_decodeAll {bytes : List UInt8} {count : Nat} (size : bytes.length = 4 * count) :
    codec.encodeAll (codec.decodeAll bytes) = bytes := by
  rcases codec.exists_encodeAll size with ⟨values, _, rfl⟩
  rw [decodeAll_encodeAll]

theorem decodeAll_append {first : List UInt8} {count : Nat} (size : first.length = 4 * count)
    (second : List UInt8) :
    codec.decodeAll (first ++ second) = codec.decodeAll first ++ codec.decodeAll second := by
  rcases codec.exists_encodeAll size with ⟨values, _, rfl⟩
  rw [decodeAll_encodeAll_append, decodeAll_encodeAll]

end FieldCodec

end RangeRecall
