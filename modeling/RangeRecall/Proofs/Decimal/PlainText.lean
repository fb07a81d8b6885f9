import RangeRecall.Proofs.Decimal.Positional
import RangeRecall.Proofs.Numeric.SinglePatterns

/-! Plain texts of single-precision numbers and how they are read. A text without an exponent spells
a decimal, the decimal is rounded, and the shortest decimal of a number is rounded to the number.
So every number is read back from its plain text with all its bits. -/

namespace RangeRecall

open BinaryFormat (RoundsTo InPlace)

namespace Binary32

def nearestPattern (decimal : Decimal) : Nat :=
  BinaryFormat.single.nearest false (decimal.digits * tenTo decimal.exponent.toNat)
    (tenTo (-decimal.exponent).toNat)

def ofUnsignedText? (negative : Bool) (symbols : List Char) : Option Binary32 :=
  if symbols = "inf".toList then
    some (ofPattern negative BinaryFormat.single.infinityPattern)
  else (Decimal.ofPlain? symbols).map fun decimal => ofPattern negative (nearestPattern decimal)

/-- The number that a plain text stands for: infinity, or the nearest one to a decimal. -/
def ofPlainText? (text : String) : Option Binary32 :=
  match text.toList with
  | '-' :: symbols => ofUnsignedText? true symbols
  | symbols => ofUnsignedText? false symbols

theorem nearestPattern_rounds (decimal : Decimal) :
    RoundsTo .single decimal.value (nearestPattern decimal) := by
  have rounds := BinaryFormat.nearest_rounds .single (by decide)
    (decimal.digits * tenTo decimal.exponent.toNat)
    (show 0 < tenTo (-decimal.exponent).toNat from Nat.pow_pos (by decide))
  have same : ((decimal.digits * tenTo decimal.exponent.toNat : Nat) : ℚ) /
      (tenTo (-decimal.exponent).toNat : Nat) = decimal.value := by
    rw [Decimal.value, BinaryFormat.zpow_eq_div, tenTo_eq, tenTo_eq]
    push_cast
    rw [mul_div_assoc]
  rwa [same] at rounds

inductive Spells : String → Nat → Prop where
  | infinity : Spells "inf" BinaryFormat.single.infinityPattern
  | decimal {decimal : Decimal} {pattern : Nat} (rounds : RoundsTo .single decimal.value pattern) :
      Spells decimal.positionalText pattern

namespace Spells

variable {text : String} {pattern : Nat}

theorem symbols (spells : Spells text pattern) :
    (∃ first rest, text.toList = first :: rest ∧ first ≠ '-') ∧
      ∀ symbol ∈ text.toList, symbol.isDigit = true ∨ symbol ∈ ['.', 'i', 'n', 'f'] := by
  cases spells with
  | infinity =>
      constructor
      · exact ⟨'i', ['n', 'f'], rfl, by decide⟩
      · exact fun _ letter => .inr (List.mem_cons_of_mem _ letter)
  | decimal =>
      rename_i decimal rounds
      obtain ⟨⟨first, rest, symbols, digit⟩, all⟩ := decimal.symbols_positionalText
      constructor
      · refine ⟨first, rest, symbols, ?_⟩
        rintro rfl
        exact absurd digit (by decide)
      · intro symbol member
        apply (all symbol member).imp_right
        rintro rfl
        exact List.mem_cons_self

theorem reads (spells : Spells text pattern) (negative : Bool) :
    ofUnsignedText? negative text.toList = some (ofPattern negative pattern) := by
  cases spells with
  | infinity => exact if_pos rfl
  | decimal rounds =>
      rename_i decimal
      have digit := decimal.symbols_positionalText.1
      have other : decimal.positionalText.toList ≠ "inf".toList := by
        intro same
        obtain ⟨first, rest, symbols, digit⟩ := digit
        obtain ⟨rfl, -⟩ : 'i' = first ∧ _ := List.cons.inj (same.symm.trans symbols)
        exact absurd digit (by decide)
      obtain ⟨spelled, read, value⟩ := decimal.exists_ofPlain?_positionalText
      rw [ofUnsignedText?, if_neg other, read, Option.map_some]
      have again := nearestPattern_rounds spelled
      rw [value] at again
      rw [again.unique rounds]

end Spells

variable {number : Binary32}

theorem zeroText_eq : "0" = Decimal.positionalText { digits := 0, exponent := 0 } := by
  decide +kernel

theorem exists_spells (isNumber : number.isNaN = false) :
    ∃ negative text pattern, number.plainText = Decimal.signText negative ++ text ∧
      number = ofPattern negative pattern ∧ Spells text pattern := by
  rw [plainText]
  rcases value : number.value with _ | negative | ⟨negative, significand, exponent⟩
  · rw [isNaN, value] at isNumber
    exact absurd isNumber (by decide)
  · exact ⟨negative, _, _, rfl, eq_ofPattern (bits_of_infinite value), .infinity⟩
  · obtain ⟨sign, pattern, steps, digits, place, finite, bits, same⟩ :=
      IsFinite.exists_place ⟨negative, significand, exponent, value⟩
    obtain ⟨rfl, rfl, rfl⟩ := RealValue.finite.inj (value.symm.trans same)
    refine ⟨negative, ?_⟩
    rcases Nat.eq_zero_or_pos significand with rfl | some
    · have zero : pattern = 0 := place.pattern_eq_zero_iff.mpr rfl
      have rounds : RoundsTo .single (Decimal.value { digits := 0, exponent := 0 }) pattern := by
        rw [zero, Decimal.value, Nat.cast_zero, zero_mul]
        simpa using RoundsTo.magnitude (Nat.zero_le BinaryFormat.single.infinityPattern)
      refine ⟨_, pattern, ?_, eq_ofPattern bits, .decimal rounds⟩
      rw [← zeroText_eq]
      rfl
    · have positive : pattern ≠ 0 := mt place.pattern_eq_zero_iff.mp some.ne'
      have short := @Decimal.shortest_isShort .single pattern steps significand 8 (by decide) place
        positive finite (by decide) (by decide) .up
      -- Only a zero is not written as a shortest decimal, so the significand must be a successor.
      obtain ⟨before, rfl⟩ := Nat.exists_eq_succ_of_ne_zero some.ne'
      exact ⟨_, pattern, rfl, eq_ofPattern bits, .decimal short.rounds⟩

/-! ## Plain texts -/

theorem mem_plainText (isNumber : number.isNaN = false) :
    ∀ symbol ∈ number.plainText.toList,
      symbol.isDigit = true ∨ symbol ∈ ['-', '.', 'i', 'n', 'f'] := by
  obtain ⟨negative, text, pattern, written, -, spells⟩ := exists_spells isNumber
  rw [written, String.toList_append]
  intro symbol member
  rcases List.mem_append.mp member with sign | member
  · cases negative with
    | true =>
        obtain rfl := List.mem_singleton.mp sign
        exact .inr List.mem_cons_self
    | false => cases sign
  · exact (spells.symbols.2 symbol member).imp_right (List.mem_cons_of_mem _)

theorem plainText_ne_empty (isNumber : number.isNaN = false) : number.plainText ≠ "" := by
  obtain ⟨negative, text, pattern, written, -, spells⟩ := exists_spells isNumber
  obtain ⟨⟨first, rest, symbols, -⟩, -⟩ := spells.symbols
  intro empty
  have none := congrArg String.toList (written.symm.trans empty)
  rw [String.toList_append, symbols] at none
  exact List.append_ne_nil_of_right_ne_nil _ (List.cons_ne_nil first rest) none

theorem ofPlainText?_plainText (isNumber : number.isNaN = false) :
    ofPlainText? number.plainText = some number := by
  obtain ⟨negative, text, pattern, written, same, spells⟩ := exists_spells isNumber
  have read := spells.reads negative
  rw [← same] at read
  rw [ofPlainText?, written, String.toList_append]
  cases negative with
  | true => exact read
  | false =>
      obtain ⟨⟨first, rest, symbols, unsigned⟩, -⟩ := spells.symbols
      change (match text.toList with
        | '-' :: symbols => ofUnsignedText? true symbols
        | symbols => ofUnsignedText? false symbols) = _
      split
      · rename_i signed
        exact absurd (List.cons.inj (symbols.symm.trans signed)).1 unsigned
      · exact read

end Binary32

end RangeRecall
