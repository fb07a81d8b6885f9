import Mathlib
import RangeRecall.Json.Number
import RangeRecall.Json.Value

/-! The bytes of texts, and the digits of natural numbers in them. -/

namespace RangeRecall

namespace Json

/-! ## Bytes of texts -/

theorem toList_loop (bytes : ByteArray) (start : Nat) (collected : List UInt8) :
    ByteArray.toList.loop bytes start collected =
      collected.reverse ++ bytes.data.toList.drop start := by
  fun_induction ByteArray.toList.loop bytes start collected with
  | case1 start collected less ih =>
      have inside : start < bytes.data.toList.length := less
      have here : bytes.get! start = bytes.data.toList[start] := getElem!_pos bytes.data start less
      rw [ih, List.drop_eq_getElem_cons inside, here, List.reverse_cons, List.append_assoc,
        List.singleton_append]
  | case2 start collected beyond =>
      rw [List.drop_eq_nil_of_le (Nat.le_of_not_lt beyond), List.append_nil]

theorem bytesOf_eq (text : String) : bytesOf text = text.toByteArray.data.toList := by
  rw [bytesOf, String.toUTF8, ByteArray.toList, toList_loop]
  rfl

theorem bytesOf_append (left right : String) :
    bytesOf (left ++ right) = bytesOf left ++ bytesOf right := by
  rw [bytesOf_eq, bytesOf_eq, bytesOf_eq, String.toByteArray_append, ByteArray.toList_data_append]

theorem fromUTF8?_bytesOf (text : String) :
    String.fromUTF8? (ByteArray.mk (bytesOf text).toArray) = some text := by
  rw [bytesOf_eq, Array.toArray_toList]
  exact dif_pos text.isValidUTF8

theorem bytesOf_ofList {characters : List Char}
    (small : ∀ character ∈ characters, character.toNat < 128) :
    bytesOf (String.ofList characters) = characters.map Char.toUInt8 := by
  rw [bytesOf_eq, String.toByteArray_ofList, List.utf8Encode, List.toList_data_toByteArray]
  induction characters with
  | nil => rfl
  | cons first rest ih =>
      have size : first.utf8Size = 1 := by
        rw [Char.utf8Size_eq_one_iff, UInt32.le_iff_toNat_le]
        exact Nat.le_of_lt_succ (small first List.mem_cons_self)
      rw [List.flatMap_cons, List.map_cons,
        ih fun character mem => small character (List.mem_cons_of_mem _ mem),
        String.utf8EncodeChar_eq_singleton size]
      rfl

/-! ## Digits -/

def digitsValue (number : Nat) (digits : List UInt8) : Nat :=
  digits.foldl (fun number digit => 10 * number + digitValue digit) number

theorem le_digitsValue (number : Nat) (digits : List UInt8) :
    number ≤ digitsValue number digits := by
  induction digits generalizing number with
  | nil => exact le_rfl
  | cons digit rest ih =>
      have step := ih (10 * number + digitValue digit)
      rw [digitsValue, List.foldl_cons]
      rw [digitsValue] at step
      omega

theorem appendDigits_of_le {limit number : Nat} {digits : List UInt8}
    (fits : digitsValue number digits ≤ limit) :
    appendDigits limit number digits = (digitsValue number digits, 0) := by
  induction digits generalizing number with
  | nil => rfl
  | cons digit rest ih =>
      have step : 10 * number + digitValue digit ≤ limit :=
        (le_digitsValue _ rest).trans fits
      rw [appendDigits, if_pos step, ih fits]
      rfl

theorem small_of_isDigit {character : Char} (digit : character.isDigit = true) :
    48 ≤ character.toNat ∧ character.toNat ≤ 57 := by
  simp only [Char.isDigit, Bool.and_eq_true, decide_eq_true_eq, ge_iff_le] at digit
  exact digit

theorem toNat_toUInt8 {character : Char} (digit : character.isDigit = true) :
    character.toUInt8.toNat = character.toNat := by
  have bounds := small_of_isDigit digit
  have small : character.toNat < 256 := by omega
  exact Nat.mod_eq_of_lt small

theorem isDigit_toUInt8 {character : Char} (digit : character.isDigit = true) :
    isDigit character.toUInt8 = true := by
  have bounds := small_of_isDigit digit
  have value := toNat_toUInt8 digit
  simp only [isDigit, Bool.and_eq_true, decide_eq_true_eq, UInt8.le_iff_toNat_le, value]
  exact bounds

theorem digitsValue_map {characters : List Char}
    (digits : ∀ character ∈ characters, character.isDigit = true) (number : Nat) :
    digitsValue number (characters.map Char.toUInt8) = Nat.ofDigitChars 10 characters number := by
  induction characters generalizing number with
  | nil => rfl
  | cons first rest ih =>
      have value := toNat_toUInt8 (digits first List.mem_cons_self)
      have others := ih fun character mem => digits character (List.mem_cons_of_mem _ mem)
      rw [List.map_cons, Nat.ofDigitChars_cons, ← others, digitsValue, digitsValue,
        List.foldl_cons, digitValue, value]
      rfl

def digitBytes (natural : Nat) : List UInt8 :=
  (Nat.toDigits 10 natural).map Char.toUInt8

theorem bytesOf_naturalText (natural : Nat) :
    bytesOf (Decimal.naturalText natural) = digitBytes natural := by
  refine bytesOf_ofList fun character mem => ?_
  have bounds := small_of_isDigit (Nat.isDigit_of_mem_toDigits (by decide) (by decide) mem)
  omega

theorem isDigit_of_mem_digitBytes {natural : Nat} {byte : UInt8}
    (mem : byte ∈ digitBytes natural) : isDigit byte = true := by
  obtain ⟨character, inside, rfl⟩ := List.mem_map.mp mem
  exact isDigit_toUInt8 (Nat.isDigit_of_mem_toDigits (by decide) (by decide) inside)

theorem digitsValue_digitBytes (number natural : Nat) :
    digitsValue number (digitBytes natural) =
      10 ^ (digitBytes natural).length * number + natural := by
  rw [digitBytes, digitsValue_map fun character mem =>
    Nat.isDigit_of_mem_toDigits (by decide) (by decide) mem, List.length_map,
    Nat.ofDigitChars_eq_ofDigitChars_zero, Nat.ofDigitChars_ten_toDigits]

theorem length_digitBytes_le {natural places : Nat} (positive : 0 < places) :
    (digitBytes natural).length ≤ places ↔ natural < 10 ^ places := by
  rw [digitBytes, List.length_map]
  exact Nat.length_toDigits_le_iff (by decide) positive

theorem digitBytes_ne_nil (natural : Nat) : digitBytes natural ≠ [] := by
  rw [digitBytes, Ne, List.map_eq_nil_iff]
  exact Nat.toDigits_ne_nil

theorem head_toDigits {natural : Nat} (positive : natural ≠ 0) :
    (Nat.toDigits 10 natural).head? ≠ some '0' := by
  induction natural using Nat.strong_induction_on with
  | _ natural ih =>
      rw [Nat.toDigits_eq_if (by decide)]
      split
      · rename_i small
        interval_cases natural
        · exact absurd rfl positive
        all_goals decide
      · rename_i large
        rw [List.head?_append_of_ne_nil _ Nat.toDigits_ne_nil]
        exact ih (natural / 10) (by omega) (by omega)

theorem digitBytes_no_leading_zero {natural : Nat} {second : UInt8} {rest : List UInt8} :
    digitBytes natural ≠ 0x30 :: second :: rest := by
  intro same
  rcases eq_or_ne natural 0 with rfl | positive
  · cases same
  · have head := congrArg List.head? same
    rw [digitBytes, List.head?_map] at head
    obtain ⟨character, first, zero⟩ := Option.map_eq_some_iff.mp head
    have digit := Nat.isDigit_of_mem_toDigits (by decide) (by decide) (List.mem_of_head? first)
    have value : character.toNat = 48 := by
      rw [← toNat_toUInt8 digit, zero]
      rfl
    have same : character = '0' := Char.ext (UInt32.toNat_inj.mp value)
    exact head_toDigits positive (same ▸ first)

theorem digitCount_eq {natural : Nat} (positive : natural ≠ 0) :
    Decimal.digitCount natural = (digitBytes natural).length := by
  induction natural using Nat.strong_induction_on with
  | _ natural ih =>
      rw [Decimal.digitCount, if_neg positive, digitBytes, Nat.toDigits_eq_if (by decide)]
      split
      · rename_i small
        rw [Nat.div_eq_of_lt small, Decimal.digitCount, if_pos rfl]
        rfl
      · rename_i large
        rw [ih (natural / 10) (by omega) (by omega), digitBytes]
        simp

end Json

end RangeRecall
