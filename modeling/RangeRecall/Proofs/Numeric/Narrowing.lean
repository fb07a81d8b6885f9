import RangeRecall.Proofs.Bytes.Checksum
import RangeRecall.Proofs.Numeric.DoubleArithmetic

/-! Doubles with a sign and their narrowing to single precision, which rounds once. -/

namespace RangeRecall

open BinaryFormat (RoundsTo)

theorem BinaryFormat.nearest_sign (format : BinaryFormat) (negative : Bool)
    (numerator denominator : Nat) :
    format.nearest negative numerator denominator =
      format.signPattern negative + format.nearest false numerator denominator := by
  have none : format.signPattern false = 0 := rfl
  simp only [nearest, none, Nat.zero_add]

namespace Binary64

variable {number : Binary64}

theorem value_of_sign (measure : number.IsMeasure) :
    ∃ (significand : Nat) (exponent : Int), number.magnitude = significand * 2 ^ exponent ∧
      number.value = .finite false significand exponent ∧
      number.negate.value = .finite true significand exponent := by
  obtain ⟨steps, significand, place⟩ := BinaryFormat.double.exists_place number.bits.toNat
  have sign : number.negate.bits.toNat =
      BinaryFormat.double.signPattern true + number.bits.toNat := by
    have small : number.bits.toNat < 2 ^ 63 := measure.trans (by decide)
    rw [negate, UInt64.toNat_xor, Nat.add_comm]
    exact Checksum.xor_eq_add small 1
  refine ⟨significand, _, place.magnitude_eq, ?_, ?_⟩
  · exact value_of_place measure place
  · rw [value, sign]
    exact BinaryFormat.decode_of_place place measure true

theorem isInfinite_of_measure (measure : number.IsMeasure) : number.isInfinite = false := by
  obtain ⟨significand, exponent, -, value, -⟩ := value_of_sign measure
  rw [isInfinite, value]
  rfl

theorem toBinary32_rounds (measure : number.IsMeasure) :
    RoundsTo .single number.magnitude number.toBinary32.bits.toNat ∧
      number.negate.toBinary32.bits.toNat =
        BinaryFormat.single.signPattern true + number.toBinary32.bits.toNat := by
  obtain ⟨significand, exponent, magnitude, plus, minus⟩ := value_of_sign measure
  have rounds := BinaryFormat.nearest_rounds .single (by decide)
    (significand * twoTo exponent.toNat) (Nat.two_pow_pos (-exponent).toNat)
  have same : ((significand * twoTo exponent.toNat : Nat) : ℚ) / (2 ^ (-exponent).toNat : Nat) =
      number.magnitude := by
    rw [magnitude, BinaryFormat.zpow_eq_div 2 exponent, twoTo_eq]
    push_cast
    rw [mul_div_assoc]
  rw [same] at rounds
  have bound := rounds.le_infinity
  have infinity : BinaryFormat.single.infinityPattern = 2139095040 := rfl
  have sign : BinaryFormat.single.signPattern true = 2147483648 := rfl
  have positive : number.toBinary32.bits.toNat = BinaryFormat.single.nearest false
      (significand * twoTo exponent.toNat) (2 ^ (-exponent).toNat) := by
    simp only [toBinary32, plus]
    exact UInt32.toNat_ofNat_of_lt' (Nat.lt_of_le_of_lt bound (by decide))
  have negative : number.negate.toBinary32.bits.toNat = BinaryFormat.single.nearest true
      (significand * twoTo exponent.toNat) (2 ^ (-exponent).toNat) := by
    simp only [toBinary32, minus]
    refine UInt32.toNat_ofNat_of_lt' ?_
    change BinaryFormat.single.nearest true (significand * twoTo exponent.toNat)
      (2 ^ (-exponent).toNat) < _
    rw [BinaryFormat.nearest_sign]
    change _ < 4294967296
    omega
  rw [positive, negative]
  exact ⟨rounds, BinaryFormat.nearest_sign _ _ _ _⟩

end Binary64

end RangeRecall
