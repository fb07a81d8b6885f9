import RangeRecall.Decimal.Text
import RangeRecall.Proofs.Decimal.Shortest

/-! Positional texts of decimals and how they are read. Digits on both sides of a point spell the
decimal, and a whole number is spelled without a point. -/

namespace RangeRecall

namespace Decimal

def AreDigits (symbols : List Char) : Prop :=
  symbols ≠ [] ∧ ∀ symbol ∈ symbols, symbol.isDigit = true

instance (symbols : List Char) : Decidable (AreDigits symbols) :=
  inferInstanceAs (Decidable (_ ∧ _))

/-- The decimal that symbols without a sign and an exponent spell. If there is a point, digits stand
on both sides of it. -/
def ofPlain? (symbols : List Char) : Option Decimal :=
  match symbols.splitOn '.' with
  | [whole] =>
    if AreDigits whole then some { digits := Nat.ofDigitChars 10 whole 0, exponent := 0 } else none
  | [whole, fraction] =>
    if AreDigits whole ∧ AreDigits fraction then
      some { digits := Nat.ofDigitChars 10 (whole ++ fraction) 0, exponent := -fraction.length }
    else none
  | _ => none

theorem areDigits_toDigits (natural : Nat) : AreDigits (Nat.toDigits 10 natural) :=
  ⟨Nat.toDigits_ne_nil, fun _ member =>
    Nat.isDigit_of_mem_toDigits (by decide) (by decide) member⟩

theorem AreDigits.point_notMem {symbols : List Char} (digits : AreDigits symbols) :
    '.' ∉ symbols := fun member => absurd (digits.2 _ member) (by decide)

theorem ofPlain?_whole {whole : List Char} (digits : AreDigits whole) :
    ofPlain? whole = some { digits := Nat.ofDigitChars 10 whole 0, exponent := 0 } := by
  rw [ofPlain?, List.splitOn_eq_singleton digits.point_notMem]
  exact if_pos digits

theorem ofPlain?_fraction {whole fraction : List Char} (wholeDigits : AreDigits whole)
    (fractionDigits : AreDigits fraction) :
    ofPlain? (whole ++ '.' :: fraction) =
      some {
        digits := Nat.ofDigitChars 10 (whole ++ fraction) 0
        exponent := -fraction.length } := by
  rw [ofPlain?, List.splitOn_append_cons_self_of_not_mem wholeDigits.point_notMem,
    List.splitOn_eq_singleton fractionDigits.point_notMem]
  exact if_pos ⟨wholeDigits, fractionDigits⟩

def fractionDigits (digits places : Nat) : List Char :=
  List.replicate (places - (Nat.toDigits 10 (digits % tenTo places)).length) '0' ++
    Nat.toDigits 10 (digits % tenTo places)

theorem toList_positionalText (decimal : Decimal) :
    decimal.positionalText.toList =
      if 0 ≤ decimal.exponent then
        Nat.toDigits 10 (decimal.digits * tenTo decimal.exponent.toNat)
      else
        Nat.toDigits 10 (decimal.digits / tenTo (-decimal.exponent).toNat) ++
          '.' :: fractionDigits decimal.digits (-decimal.exponent).toNat := by
  rw [positionalText]
  split
  · simp [naturalText]
  · simp [naturalText, fractionDigits]

theorem areDigits_fractionDigits (digits places : Nat) :
    AreDigits (fractionDigits digits places) := by
  have last := areDigits_toDigits (digits % tenTo places)
  constructor
  · exact List.append_ne_nil_of_right_ne_nil _ last.1
  · intro symbol member
    rcases List.mem_append.mp member with zero | digit
    · rw [List.eq_of_mem_replicate zero]
      decide
    · exact last.2 symbol digit

theorem length_fractionDigits (digits : Nat) {places : Nat} (positive : 0 < places) :
    (fractionDigits digits places).length = places := by
  have short : (Nat.toDigits 10 (digits % tenTo places)).length ≤ places :=
    (Nat.length_toDigits_le_iff (by decide) positive).mpr
      (Nat.mod_lt _ (Nat.pow_pos (by decide)))
  rw [fractionDigits, List.length_append, List.length_replicate]
  omega

theorem ofDigitChars_fractionDigits (digits : Nat) {places : Nat} (positive : 0 < places) :
    Nat.ofDigitChars 10 (fractionDigits digits places) (digits / tenTo places) = digits := by
  have length := length_fractionDigits digits positive
  rw [fractionDigits, List.length_append, List.length_replicate, Nat.add_comm] at length
  rw [fractionDigits, Nat.ofDigitChars_append, Nat.ofDigitChars_replicate_zero,
    Nat.ofDigitChars_eq_ofDigitChars_zero, Nat.ofDigitChars_ten_toDigits, ← Nat.mul_assoc,
    ← pow_add, length]
  exact Nat.div_add_mod digits (tenTo places)

theorem exists_ofPlain?_positionalText (decimal : Decimal) :
    ∃ spelled, ofPlain? decimal.positionalText.toList = some spelled ∧
      spelled.value = decimal.value := by
  rw [toList_positionalText]
  split
  · rename_i whole
    refine ⟨_, ofPlain?_whole (areDigits_toDigits _), ?_⟩
    rw [Nat.ofDigitChars_ten_toDigits, value, value, tenTo_eq, zpow_zero, mul_one]
    push_cast
    rw [← zpow_natCast, Int.toNat_of_nonneg whole]
  · rename_i fraction
    have places : 0 < (-decimal.exponent).toNat := by omega
    refine ⟨_, ofPlain?_fraction (areDigits_toDigits _) (areDigits_fractionDigits _ _), ?_⟩
    have exponent : -((-decimal.exponent).toNat : Int) = decimal.exponent := by omega
    rw [Nat.ofDigitChars_append, Nat.ofDigitChars_ten_toDigits,
      ofDigitChars_fractionDigits _ places, length_fractionDigits _ places, exponent]

theorem symbols_positionalText (decimal : Decimal) :
    (∃ first rest, decimal.positionalText.toList = first :: rest ∧ first.isDigit = true) ∧
      ∀ symbol ∈ decimal.positionalText.toList, symbol.isDigit = true ∨ symbol = '.' := by
  have begins {symbols : List Char} (digits : AreDigits symbols) (more : List Char) :
      ∃ first rest, symbols ++ more = first :: rest ∧ first.isDigit = true := by
    obtain ⟨first, rest, rfl⟩ := List.exists_cons_of_ne_nil digits.1
    exact ⟨first, rest ++ more, rfl, digits.2 _ List.mem_cons_self⟩
  rw [toList_positionalText]
  split
  · have digits := areDigits_toDigits (decimal.digits * tenTo decimal.exponent.toNat)
    constructor
    · simpa using begins digits []
    · exact fun symbol member => .inl (digits.2 symbol member)
  · have whole := areDigits_toDigits (decimal.digits / tenTo (-decimal.exponent).toNat)
    have fraction := areDigits_fractionDigits decimal.digits (-decimal.exponent).toNat
    constructor
    · exact begins whole _
    · intro symbol member
      rcases List.mem_append.mp member with before | after
      · exact .inl (whole.2 symbol before)
      · rcases List.mem_cons.mp after with point | after
        · exact .inr point
        · exact .inl (fraction.2 symbol after)

end Decimal

end RangeRecall
