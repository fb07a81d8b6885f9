/-!
Fixed-width integers as bytes, least significant byte first, and the reflected
32-bit cyclic redundancy check with the polynomial `0xEDB88320`, started from all
ones and complemented at the end.
-/

namespace RangeRecall

namespace LittleEndian

def encode : (width : Nat) → Nat → List UInt8
  | 0, _ => []
  | width + 1, natural => UInt8.ofNat natural :: encode width (natural / 256)

def decode : List UInt8 → Nat
  | [] => 0
  | byte :: rest => byte.toNat + 256 * decode rest

def groups (width : Nat) (bytes : List UInt8) : List (List UInt8) :=
  if 0 < width ∧ width ≤ bytes.length then
    bytes.take width :: groups width (bytes.drop width)
  else []
termination_by bytes.length
decreasing_by simp only [List.length_drop]; omega

def capacity : (width : Nat) → Nat
  | 0 => 1
  | width + 1 => 256 * capacity width

theorem length_encode (width natural : Nat) : (encode width natural).length = width := by
  induction width generalizing natural with
  | zero => rfl
  | succ width induction => simp [encode, induction]

theorem decode_encode {width natural : Nat} (fits : natural < capacity width) :
    decode (encode width natural) = natural := by
  induction width generalizing natural with
  | zero =>
    simp only [capacity] at fits
    simp only [encode, decode]
    omega
  | succ width induction =>
    simp only [capacity] at fits
    have smaller : natural / 256 < capacity width := by omega
    simp only [encode, decode, induction smaller, UInt8.toNat_ofNat']
    omega

theorem decode_lt (bytes : List UInt8) : decode bytes < capacity bytes.length := by
  induction bytes with
  | nil => simp [decode, capacity]
  | cons byte rest induction =>
    have := byte.toNat_lt
    simp only [decode, List.length_cons, capacity]
    omega

theorem encode_decode (bytes : List UInt8) : encode bytes.length (decode bytes) = bytes := by
  induction bytes with
  | nil => rfl
  | cons byte rest induction =>
    have bound := byte.toNat_lt
    have head : UInt8.ofNat (byte.toNat + 256 * decode rest) = byte := by
      apply UInt8.toNat_inj.mp
      simp only [UInt8.toNat_ofNat']
      omega
    have tail : (byte.toNat + 256 * decode rest) / 256 = decode rest := by omega
    simp [encode, decode, head, tail, induction]

end LittleEndian

/-! ## Checksums -/

namespace Checksum

def polynomial : UInt32 :=
  0xEDB88320

def shift (remainder : UInt32) : UInt32 :=
  if remainder &&& 1 = 1 then (remainder >>> 1) ^^^ polynomial else remainder >>> 1

def shifts : Nat → UInt32 → UInt32
  | 0, remainder => remainder
  | count + 1, remainder => shifts count (shift remainder)

def absorb (remainder : UInt32) (byte : UInt8) : UInt32 :=
  shifts 8 (remainder ^^^ byte.toUInt32)

def ofBytes (bytes : List UInt8) : UInt32 :=
  bytes.foldl absorb 0xFFFFFFFF ^^^ 0xFFFFFFFF

end Checksum

end RangeRecall
