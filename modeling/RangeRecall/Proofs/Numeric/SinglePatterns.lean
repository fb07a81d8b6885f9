import RangeRecall.Numeric.Binary32
import RangeRecall.Proofs.Numeric.Rounding

/-! Single-precision numbers by their sign and their pattern without it. A finite number has a
significand in a place, and infinity has the first pattern behind those of finite numbers. -/

namespace RangeRecall

open BinaryFormat (InPlace)

namespace Binary32

variable {number : Binary32}

def ofPattern (negative : Bool) (pattern : Nat) : Binary32 :=
  { bits := UInt32.ofNat (BinaryFormat.single.signPattern negative + pattern) }

theorem eq_ofPattern {negative : Bool} {pattern : Nat}
    (bits : number.bits.toNat = BinaryFormat.single.signPattern negative + pattern) :
    number = ofPattern negative pattern := by
  rw [ofPattern, ← bits, UInt32.ofNat_toNat]

theorem value_eq (number : Binary32) : number.value =
    if number.bits.toNat / 2 ^ 23 % 256 = 255 then
      if number.bits.toNat % 2 ^ 23 = 0 then
        .infinite (number.bits.toNat / 2 ^ 31 % 2 == 1)
      else .nan
    else if number.bits.toNat / 2 ^ 23 % 256 = 0 then
      .finite (number.bits.toNat / 2 ^ 31 % 2 == 1) (number.bits.toNat % 2 ^ 23) (-149)
    else
      .finite (number.bits.toNat / 2 ^ 31 % 2 == 1) (number.bits.toNat % 2 ^ 23 + 2 ^ 23)
        (-149 + (number.bits.toNat / 2 ^ 23 % 256 - 1 : Nat)) := rfl

def IsFinite (number : Binary32) : Prop :=
  ∃ negative significand exponent, number.value = .finite negative significand exponent

theorem IsFinite.exists_place (finite : number.IsFinite) :
    ∃ negative pattern steps significand, InPlace .single pattern steps significand ∧
      pattern < BinaryFormat.single.infinityPattern ∧
      number.bits.toNat = BinaryFormat.single.signPattern negative + pattern ∧
      number.value = .finite negative significand (BinaryFormat.single.leastExponent + steps) := by
  obtain ⟨negative, split⟩ : ∃ negative, number.bits.toNat =
      BinaryFormat.single.signPattern negative + number.bits.toNat % 2 ^ 31 := by
    have bound := number.bits.toNat_lt
    rcases Nat.lt_or_ge number.bits.toNat (2 ^ 31) with small | large
    · exact ⟨false, by rw [Nat.mod_eq_of_lt small]; exact (Nat.zero_add _).symm⟩
    · refine ⟨true, ?_⟩
      change _ = 2 ^ 31 + _
      omega
  obtain ⟨steps, significand, place⟩ :=
    BinaryFormat.single.exists_place (number.bits.toNat % 2 ^ 31)
  have below : number.bits.toNat % 2 ^ 31 < BinaryFormat.single.infinityPattern := by
    obtain ⟨_, _, _, same⟩ := finite
    by_contra beyond
    change ¬number.bits.toNat % 2 ^ 31 < 255 * 2 ^ 23 at beyond
    rw [value_eq, if_pos (by omega)] at same
    split at same <;> cases same
  refine ⟨negative, _, steps, significand, place, below, split, ?_⟩
  rw [value, split]
  exact BinaryFormat.decode_of_place place below negative

theorem bits_of_infinite {negative : Bool} (infinite : number.value = .infinite negative) :
    number.bits.toNat =
      BinaryFormat.single.signPattern negative + BinaryFormat.single.infinityPattern := by
  have bound := number.bits.toNat_lt
  rw [value_eq] at infinite
  split at infinite
  · rename_i greatest
    split at infinite
    · rename_i none
      injection infinite with sign
      cases negative with
      | true =>
          have signed := beq_iff_eq.mp sign
          change _ = 2 ^ 31 + 255 * 2 ^ 23
          omega
      | false =>
          have unsigned := beq_eq_false_iff_ne.mp sign
          change _ = 0 + 255 * 2 ^ 23
          omega
    · cases infinite
  · split at infinite <;> cases infinite

end Binary32

end RangeRecall
