import Mathlib.Data.Nat.Bitwise
import Mathlib.Logic.Function.Basic
import RangeRecall.Bytes.Word

/-! What the checksum detects. Moving the remainder by a bit respects exclusive or and loses
nothing, and up to four bytes enter a remainder like one word. Bytes that differ in at most four
places in a row therefore never have the same checksum. -/

namespace RangeRecall

namespace LittleEndian

theorem eq_of_decode_eq {first second : List UInt8} (sameLength : first.length = second.length)
    (same : decode first = decode second) : first = second := by
  rw [← encode_decode first, sameLength, same, encode_decode]

theorem capacity_eq_pow (width : Nat) : capacity width = 2 ^ (8 * width) := by
  induction width with
  | zero => rfl
  | succ width induction => rw [capacity, induction, Nat.mul_succ, Nat.pow_add, Nat.mul_comm]

theorem capacity_mono {smaller larger : Nat} (within : smaller ≤ larger) :
    capacity smaller ≤ capacity larger := by
  rw [capacity_eq_pow, capacity_eq_pow]
  exact Nat.pow_le_pow_right (by decide) (Nat.mul_le_mul_left 8 within)

end LittleEndian

namespace Checksum

/-! ## One bit -/

theorem lowBit_iff (remainder : UInt32) : remainder &&& 1 = 1 ↔ remainder.toNat % 2 = 1 := by
  rw [← UInt32.toNat_inj, UInt32.toNat_and]
  exact iff_of_eq (congrArg (· = 1) (Nat.and_one_is_mod _))

theorem shift_of_odd {remainder : UInt32} (odd : remainder.toNat % 2 = 1) :
    shift remainder = (remainder >>> 1) ^^^ polynomial :=
  if_pos ((lowBit_iff remainder).mpr odd)

theorem shift_of_even {remainder : UInt32} (even : remainder.toNat % 2 = 0) :
    shift remainder = remainder >>> 1 :=
  if_neg fun low => by
    rw [lowBit_iff, even] at low
    cases low

theorem toNat_shiftRight_one (remainder : UInt32) :
    (remainder >>> 1).toNat = remainder.toNat / 2 := by
  rw [UInt32.toNat_shiftRight]
  exact Nat.shiftRight_succ _ 0

theorem shift_xor (left right : UInt32) : shift (left ^^^ right) = shift left ^^^ shift right := by
  have parity : (left ^^^ right).toNat % 2 = (left.toNat + right.toNat) % 2 := by
    rw [UInt32.toNat_xor]
    exact Nat.xor_mod_two_eq
  rcases Nat.mod_two_eq_zero_or_one left.toNat with leftEven | leftOdd
  · rcases Nat.mod_two_eq_zero_or_one right.toNat with rightEven | rightOdd
    · rw [shift_of_even (by omega), shift_of_even leftEven, shift_of_even rightEven,
        UInt32.shiftRight_xor]
    · rw [shift_of_odd (by omega), shift_of_even leftEven, shift_of_odd rightOdd,
        UInt32.shiftRight_xor, UInt32.xor_assoc]
  · rcases Nat.mod_two_eq_zero_or_one right.toNat with rightEven | rightOdd
    · rw [shift_of_odd (by omega), shift_of_odd leftOdd, shift_of_even rightEven,
        UInt32.shiftRight_xor, UInt32.xor_assoc, UInt32.xor_assoc,
        UInt32.xor_comm (right >>> 1)]
    · -- The polynomial comes in twice and cancels.
      have cancels : polynomial ^^^ (right >>> 1 ^^^ polynomial) = right >>> 1 := by
        rw [UInt32.xor_comm (right >>> 1), ← UInt32.xor_assoc, UInt32.xor_self, UInt32.zero_xor]
      rw [shift_of_even (by omega), shift_of_odd leftOdd, shift_of_odd rightOdd,
        UInt32.shiftRight_xor, UInt32.xor_assoc, cancels]

theorem eq_zero_of_shift_eq_zero {remainder : UInt32} (zero : shift remainder = 0) :
    remainder = 0 := by
  have bound := remainder.toNat_lt
  have half := toNat_shiftRight_one remainder
  rcases Nat.mod_two_eq_zero_or_one remainder.toNat with even | odd
  · rw [shift_of_even even] at zero
    rw [zero] at half
    have nothing : (0 : UInt32).toNat = 0 := rfl
    apply UInt32.toNat_inj.mp
    omega
  · rw [shift_of_odd odd, UInt32.xor_eq_zero_iff] at zero
    rw [zero] at half
    have high : polynomial.toNat = 0xEDB88320 := rfl
    omega

theorem shift_injective : Function.Injective shift := by
  intro left right same
  apply UInt32.xor_eq_zero_iff.mp
  apply eq_zero_of_shift_eq_zero
  rw [shift_xor, same, UInt32.xor_self]

/-! ## Several bits -/

theorem shifts_xor (count : Nat) (left right : UInt32) :
    shifts count (left ^^^ right) = shifts count left ^^^ shifts count right := by
  induction count generalizing left right with
  | zero => rfl
  | succ count induction => rw [shifts, shift_xor, induction, shifts, shifts]

theorem shifts_injective (count : Nat) : Function.Injective (shifts count) := by
  induction count with
  | zero => exact fun _ _ same => same
  | succ count induction => exact induction.comp shift_injective

theorem shifts_add (first second : Nat) (remainder : UInt32) :
    shifts (first + second) remainder = shifts second (shifts first remainder) := by
  induction first generalizing remainder with
  | zero => rw [Nat.zero_add, shifts]
  | succ first induction => rw [Nat.succ_add, shifts, induction, shifts]

theorem toNat_shifts {count high : Nat} {remainder : UInt32}
    (clear : remainder.toNat = 2 ^ count * high) : (shifts count remainder).toNat = high := by
  induction count generalizing remainder with
  | zero => rw [shifts, clear, Nat.pow_zero, Nat.one_mul]
  | succ count induction =>
      have double : remainder.toNat = 2 * (2 ^ count * high) := by
        rw [clear, Nat.pow_succ']
        exact Nat.mul_assoc 2 _ _
      have even : remainder.toNat % 2 = 0 := by omega
      apply induction
      rw [shift_of_even even, toNat_shiftRight_one]
      omega

/-! ## Bytes -/

theorem absorb_injective (byte : UInt8) : Function.Injective fun remainder =>
    absorb remainder byte := by
  intro left right same
  exact (UInt32.xor_left_inj _).mp (shifts_injective 8 same)

theorem foldl_absorb_injective (bytes : List UInt8) :
    Function.Injective fun remainder => bytes.foldl absorb remainder := by
  induction bytes with
  | nil => exact fun _ _ same => same
  | cons byte rest induction => exact induction.comp (absorb_injective byte)

def wordOf (bytes : List UInt8) : UInt32 :=
  UInt32.ofNat (LittleEndian.decode bytes)

theorem toNat_wordOf {bytes : List UInt8} (short : bytes.length ≤ 4) :
    (wordOf bytes).toNat = LittleEndian.decode bytes :=
  UInt32.toNat_ofNat_of_lt'
    (Nat.lt_of_lt_of_le (LittleEndian.decode_lt bytes) (LittleEndian.capacity_mono short))

theorem xor_eq_add {count low : Nat} (isLow : low < 2 ^ count) (high : Nat) :
    low ^^^ (2 ^ count * high) = low + 2 ^ count * high := by
  have quotient : (low ^^^ (2 ^ count * high)) / 2 ^ count = high := by
    rw [Nat.xor_div_two_pow, Nat.div_eq_of_lt isLow,
      Nat.mul_div_cancel_left _ (Nat.two_pow_pos count), Nat.zero_xor]
  have rest : (low ^^^ (2 ^ count * high)) % 2 ^ count = low := by
    rw [Nat.xor_mod_two_pow, Nat.mod_eq_of_lt isLow, Nat.mul_mod_right, Nat.xor_zero]
  calc
    low ^^^ (2 ^ count * high) = (low ^^^ (2 ^ count * high)) % 2 ^ count +
        2 ^ count * ((low ^^^ (2 ^ count * high)) / 2 ^ count) := (Nat.mod_add_div _ _).symm
    _ = low + 2 ^ count * high := by rw [rest, quotient]

theorem foldl_absorb {bytes : List UInt8} (short : bytes.length ≤ 4) (remainder : UInt32) :
    bytes.foldl absorb remainder = shifts (8 * bytes.length) (remainder ^^^ wordOf bytes) := by
  induction bytes generalizing remainder with
  | nil =>
      have empty : wordOf [] = 0 := rfl
      rw [empty, UInt32.xor_zero]
      rfl
  | cons byte rest induction =>
      have restShort : rest.length ≤ 4 := Nat.le_of_succ_le short
      have whole := toNat_wordOf short
      -- The later bytes stand above the first, and eight moves bring them to its place.
      let above : UInt32 := UInt32.ofNat (256 * LittleEndian.decode rest)
      have toNat_above : above.toNat = 2 ^ 8 * LittleEndian.decode rest := by
        have bound := (wordOf (byte :: rest)).toNat_lt
        rw [whole, LittleEndian.decode] at bound
        exact UInt32.toNat_ofNat_of_lt' (by simp only [UInt32.size]; omega)
      have moved : shifts 8 above = wordOf rest := by
        apply UInt32.toNat_inj.mp
        rw [toNat_shifts toNat_above, toNat_wordOf restShort]
      have parts : wordOf (byte :: rest) = byte.toUInt32 ^^^ above := by
        apply UInt32.toNat_inj.mp
        rw [whole, LittleEndian.decode, UInt32.toNat_xor, toNat_above, UInt8.toNat_toUInt32,
          @xor_eq_add 8 _ byte.toNat_lt]
        rfl
      rw [List.foldl_cons, induction restShort, ← moved, absorb, ← shifts_xor, UInt32.xor_assoc,
        ← parts, ← shifts_add, List.length_cons, Nat.mul_succ, Nat.add_comm]

theorem eq_of_foldl_absorb_eq {old new : List UInt8} (sameLength : old.length = new.length)
    (short : old.length ≤ 4) {remainder : UInt32}
    (same : old.foldl absorb remainder = new.foldl absorb remainder) : old = new := by
  have newShort : new.length ≤ 4 := sameLength ▸ short
  rw [foldl_absorb short, foldl_absorb newShort, sameLength] at same
  have words := (UInt32.xor_right_inj _).mp (shifts_injective _ same)
  apply LittleEndian.eq_of_decode_eq sameLength
  rw [← toNat_wordOf short, ← toNat_wordOf newShort, words]

/-- Replacing up to four bytes in a row by others changes the checksum. -/
theorem eq_of_ofBytes_eq {old new : List UInt8} (sameLength : old.length = new.length)
    (short : old.length ≤ 4) {before after : List UInt8}
    (same : ofBytes (before ++ old ++ after) = ofBytes (before ++ new ++ after)) : old = new := by
  have remainders := (UInt32.xor_left_inj _).mp same
  rw [List.foldl_append, List.foldl_append, List.foldl_append, List.foldl_append] at remainders
  exact eq_of_foldl_absorb_eq sameLength short (foldl_absorb_injective after remainders)

end Checksum

end RangeRecall
