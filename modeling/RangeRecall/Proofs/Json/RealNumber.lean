import RangeRecall.Proofs.Json.Documents
import RangeRecall.Proofs.Json.SingleBack
import RangeRecall.Proofs.Numeric.SinglePatterns

/-! Real numbers in documents. A single-precision number is read back bit by bit, and a double that
is not very large is read as some double. -/

namespace RangeRecall

open BinaryFormat (RoundsTo InPlace)

/-! ## Whole numbers in their texts -/

namespace Decimal

variable {decimal : Decimal} {window : PositionalWindow}

theorem digitCount_le {digits places : Nat} (positive : digits ≠ 0) (some : 0 < places)
    (less : digits < 10 ^ places) : digitCount digits ≤ places := by
  rw [Json.digitCount_eq positive]
  exact (Json.length_digitBytes_le some).mpr less

theorem whole_lt (positive : 0 < decimal.digits) (whole : 0 ≤ decimal.exponent) {greatest : Nat}
    (small : decimal.magnitude ≤ greatest) :
    decimal.digits * tenTo decimal.exponent.toNat < 10 ^ (greatest + 1) := by
  obtain ⟨-, less, -⟩ := digitCount_spec positive.ne'
  rw [magnitude] at small
  calc decimal.digits * tenTo decimal.exponent.toNat
      < 10 ^ digitCount decimal.digits * tenTo decimal.exponent.toNat :=
        Nat.mul_lt_mul_of_pos_right less (Nat.pow_pos (by decide))
    _ = 10 ^ (digitCount decimal.digits + decimal.exponent.toNat) := (pow_add _ _ _).symm
    _ ≤ 10 ^ (greatest + 1) := Nat.pow_le_pow_right (by decide) (by omega)

theorem spelled_cases (positive : 0 < decimal.digits) {greatest : Nat}
    (window_eq : window.greatest = greatest) :
    decimal.spelled window = decimal ∨
      ∃ whole : Nat, whole < 10 ^ (greatest + 1) ∧ decimal.value = whole ∧
        decimal.spelled window = { digits := 10 * whole, exponent := -1 } := by
  rw [spelled]
  split
  · rename_i inside
    obtain ⟨-, small, whole⟩ := inside
    refine .inr ⟨_, whole_lt positive whole (window_eq ▸ small), ?_, rfl⟩
    rw [Decimal.value, tenTo_eq]
    push_cast
    rw [← zpow_natCast, Int.toNat_of_nonneg whole]
  · exact .inl rfl

theorem IsShortFor.isLegible {format : BinaryFormat} {pattern places widest : Nat}
    {interval : RoundingInterval} (short : decimal.IsShortFor format pattern places interval)
    (few : places ≤ 18) (window_eq : window.greatest = widest) (narrow : widest ≤ 15)
    (least : -400 ≤ decimal.exponent) (greatest : decimal.exponent ≤ 60) :
    decimal.IsLegible window := by
  have word : decimal.digits ≤ 10 ^ 18 :=
    short.bounded.trans (Nat.pow_le_pow_right (by decide) few)
  have count : digitCount decimal.digits ≤ 19 :=
    digitCount_le short.positive.ne' (by decide) (Nat.lt_of_le_of_lt word (by decide))
  refine ⟨short.positive, ?_, ?_⟩
  · rcases spelled_cases short.positive window_eq with spelled | ⟨whole, less, -, spelled⟩
    · rw [spelled]
      exact word.trans (by decide)
    · rw [spelled]
      have wide : 10 ^ (widest + 1) ≤ 10 ^ 16 := Nat.pow_le_pow_right (by decide) (by omega)
      have limit : 10 * 10 ^ 16 ≤ Json.greatestWord := by decide
      exact (Nat.mul_le_mul_left 10 (less.le.trans wide)).trans limit
  · rw [magnitude, Json.greatestExponent]
    omega

end Decimal

namespace Json

open Reader

variable {negative : Bool} {blanks rest : List UInt8}

theorem finishScaled_run {significand : Nat} {exponent : Int} {number : Binary64}
    (read : scaled significand exponent = .ok number) (rest : List UInt8) :
    (finishScaled negative significand exponent).run rest =
      .ok (withSign negative number, rest) := by
  rw [finishScaled, read]
  rfl

theorem bytesOf_signText (negative : Bool) :
    bytesOf (Decimal.signText negative) = signBytes negative := by
  cases negative <;> decide +kernel

theorem numberText_run {α : Type} (expected : String) (convert : Number → Except Complaint α)
    {text : String} (starts : ∃ natural tail, bytesOf text = digitBytes natural ++ tail)
    {number : Number} {value : α}
    (taken : (takeNumber negative).run (bytesOf text ++ rest) = .ok (number, rest))
    (converted : convert number = .ok value) (all : ∀ byte ∈ blanks, isBlank byte = true) :
    (Reader.number expected convert).run
      (blanks ++ (bytesOf (Decimal.signText negative ++ text) ++ rest)) = .ok (value, rest) := by
  obtain ⟨natural, tail, same⟩ := starts
  rw [same, List.append_assoc] at taken
  rw [bytesOf_append, bytesOf_signText, same, List.append_assoc, List.append_assoc,
    number_run expected convert negative all natural, run_bind_ok taken, converted]
  rfl

theorem zeroText : "0.0" = Decimal.naturalText 0 ++ ".0" := by decide +kernel

theorem zeroText_starts : ∃ natural tail, bytesOf "0.0" = digitBytes natural ++ tail :=
  ⟨0, bytesOf ".0", by rw [zeroText, bytesOf_append, bytesOf_naturalText]⟩

theorem takeNumber_zeroText (ends : EndsValue rest) :
    (takeNumber negative).run (bytesOf "0.0" ++ rest) =
      (finishScaled negative 0 (-1)).run rest := by
  rw [zeroText, Decimal.takeNumber_whole (by decide) ends]

/-! ## Single precision -/

theorem whole_back {whole : Nat} (some : 0 < whole) (few : 10 * whole < 2 ^ 53) :
    ∃ number, scaled (10 * whole) (-1) = .ok number ∧ number.IsMeasure ∧
      number.magnitude = whole := by
  obtain ⟨number, read, -⟩ := scaled_near (show 0 < 10 * whole by omega) few
    (show (-60 : Int) ≤ -1 by decide) (by decide)
  have tenth : ((10 * whole : Nat) * 10 ^ (-1 : Int) : ℚ) = whole := by
    push_cast
    rw [zpow_neg_one]
    ring
  have exact := scaled_rounds few (by decide) (by decide) read
  rw [tenth] at exact
  exact ⟨number, read, Binary64.magnitude_of_rounds exact (by omega)⟩

theorem spelled_back {pattern steps significand : Nat}
    (place : InPlace .single pattern steps significand) (positive : pattern ≠ 0)
    (finite : pattern < BinaryFormat.single.infinityPattern) :
    let decimal := Decimal.shortest .single .toEven significand
      (BinaryFormat.single.leastExponent + steps)
    let spelled := decimal.spelled Binary32.window
    decimal.IsLegible Binary32.window ∧
      ∃ number, scaled spelled.digits spelled.exponent = .ok number ∧ number.IsMeasure ∧
        number.toBinary32.bits.toNat = pattern := by
  have short := @Decimal.shortest_isShort .single pattern steps significand 8 (by decide) place
    positive finite (by decide) (by decide) .toEven
  generalize Decimal.shortest .single .toEven significand
    (BinaryFormat.single.leastExponent + steps) = decimal at short
  obtain ⟨least, greatest⟩ := single_exponent_bounds short positive finite
  refine ⟨@Decimal.IsShortFor.isLegible _ Binary32.window _ _ _ 12 _ short (by decide) rfl
    (by decide) (by omega) greatest, ?_⟩
  rcases @Decimal.spelled_cases decimal Binary32.window short.positive 12 rfl with
    same | ⟨whole, less, value, same⟩
  · rw [same]
    exact shortest_back place positive finite short
  · rw [same]
    have some : 0 < whole := by
      have positiveValue : 0 < decimal.value :=
        mul_pos (by exact_mod_cast short.positive) (by positivity)
      rw [value] at positiveValue
      exact_mod_cast positiveValue
    have few : 10 * whole < 2 ^ 53 := by
      have word : 10 * 10 ^ 13 < 2 ^ 53 := by decide
      omega
    obtain ⟨number, read, measure, magnitude⟩ := whole_back some few
    refine ⟨number, read, measure, ?_⟩
    have narrowed := (Binary64.toBinary32_rounds measure).1
    rw [magnitude, ← value] at narrowed
    exact narrowed.unique short.rounds

end Json

namespace Binary32

variable {number : Binary32}

theorem dataText?_of_not_finite (other : ¬number.IsFinite) : number.dataText? = none := by
  rw [dataText?]
  rcases same : number.value with _ | _ | ⟨negative, significand, exponent⟩
  · rfl
  · rfl
  · exact absurd ⟨negative, significand, exponent, same⟩ other

end Binary32

namespace Json

open Reader

theorem scaled_zero : scaled 0 (-1) = .ok .zero ∧ Binary64.zero.IsMeasure ∧
    Binary64.zero.toBinary32.bits.toNat = 0 := by
  refine ⟨?_, show 0 < BinaryFormat.double.infinityPattern by decide, by decide +kernel⟩
  rw [scaled_of_neg (by decide) (by decide)]
  exact congrArg Except.ok (by decide +kernel)

theorem single_reads {number : Binary32} (finite : number.IsFinite) :
    Reads Reader.single (.single number) number := by
  obtain ⟨negative, pattern, steps, significand, place, below, bits, value⟩ := finite.exists_place
  intro level blanks rest all ends
  have sign (double : Binary64) (measure : double.IsMeasure)
      (same : double.toBinary32.bits.toNat = pattern) :
      (if negative then double.negate else double).toBinary32 = number := by
    have narrowed := (Binary64.toBinary32_rounds measure).2
    rw [same] at narrowed
    have word : (if negative then double.negate else double).toBinary32.bits = number.bits := by
      rw [← UInt32.toNat_inj, bits]
      cases negative with
      | true => exact narrowed
      | false => exact same.trans (Nat.zero_add pattern).symm
    rw [show number = ⟨number.bits⟩ from rfl, ← word]
  rw [Value.bytesAt, realBytes, Binary32.dataText?, value]
  rcases Nat.eq_zero_or_pos significand with rfl | some
  · have zero : pattern = 0 := place.pattern_eq_zero_iff.mpr rfl
    exact numberText_run "f32" _ zeroText_starts
      ((takeNumber_zeroText ends).trans (finishScaled_run scaled_zero.1 rest))
      (congrArg Except.ok (sign _ scaled_zero.2.1 (scaled_zero.2.2.trans zero.symm))) all
  · have positive : pattern ≠ 0 := mt place.pattern_eq_zero_iff.mp some.ne'
    obtain ⟨legible, double, read, measure, same⟩ := spelled_back place positive below
    obtain ⟨before, rfl⟩ := Nat.exists_eq_succ_of_ne_zero some.ne'
    exact numberText_run "f32" _ (Decimal.exists_bytesOf_windowedText _ _)
      ((Decimal.takeNumber_windowed legible ends).trans (finishScaled_run read rest))
      (congrArg Except.ok (sign _ measure same)) all

/-! ## Doubles -/

theorem ten_zpow_le {exponent : Int} (nonpos : exponent ≤ 0) :
    (10 : ℚ) ^ exponent ≤ 2 ^ (3 * exponent) := by
  obtain ⟨power, same⟩ := Int.eq_ofNat_of_zero_le (Int.neg_nonneg.mpr nonpos)
  obtain rfl : exponent = -(power : Int) := by omega
  rw [zpow_mul, zpow_neg, zpow_neg, zpow_natCast, zpow_natCast]
  exact inv_anti₀ (by positivity) (pow_le_pow_left₀ (by positivity) (by norm_num) power)

theorem double_exponent_bounds {number : Binary64} (bounded : number.AtMost 200)
    {interval : RoundingInterval} {decimal : Decimal}
    (short : decimal.IsShortFor .double number.bits.toNat 18 interval)
    (positive : number.bits.toNat ≠ 0) : -400 ≤ decimal.exponent ∧ decimal.exponent ≤ 60 := by
  have low : (2 : ℚ) ^ (-1074 - 1 : Int) ≤ decimal.value := short.rounds.half_le positive
  have high : decimal.value < 2 ^ (201 : Int) := by
    by_contra large
    have bound := Binary64.ge_of_rounds 201 short.rounds (by decide) (by decide)
      (le_of_not_gt large)
    have less := bounded.bound
    norm_num at bound less
    linarith
  refine short.exponent_bounds (lt_of_lt_of_le ?_ low) (high.trans (by norm_num))
  -- The powers are too large to be evaluated, so they are compared with one of two.
  refine (ten_zpow_le (by decide)).trans_lt ?_
  exact zpow_lt_zpow_right₀ one_lt_two (by decide)

theorem exists_scaled_spelled {decimal : Decimal} (positive : 0 < decimal.digits)
    (word : decimal.digits ≤ 10 ^ 18) (greatest : decimal.exponent ≤ 60) :
    ∃ double, scaled (decimal.spelled Binary64.window).digits
      (decimal.spelled Binary64.window).exponent = .ok double := by
  rcases @Decimal.spelled_cases decimal Binary64.window positive 15 rfl with
    same | ⟨whole, -, -, same⟩
  · rw [same]
    rcases lt_or_ge decimal.exponent 0 with negative | nonneg
    · exact exists_scaled_of_neg _ negative
    · exact ⟨_, scaled_of_nonneg nonneg greatest (word.trans (by decide))⟩
  · rw [same]
    exact exists_scaled_of_neg _ (show (-1 : Int) < 0 by decide)

theorem double_reads {number : Binary64} (bounded : number.AtMost 200) :
    ∃ value, Reads Reader.double (.double number) value := by
  obtain ⟨steps, significand, place⟩ := BinaryFormat.double.exists_place number.bits.toNat
  have value := Binary64.value_of_place bounded.measure place
  rcases Nat.eq_zero_or_pos significand with rfl | some
  · refine ⟨.zero, fun level blanks rest all ends => ?_⟩
    rw [Value.bytesAt, realBytes, Binary64.dataText?, value]
    exact numberText_run "f64" _ zeroText_starts
      ((takeNumber_zeroText ends).trans (finishScaled_run scaled_zero.1 rest)) rfl all
  · have positive : number.bits.toNat ≠ 0 := mt place.pattern_eq_zero_iff.mp some.ne'
    have short := @Decimal.shortest_isShort .double _ steps significand 17 (by decide) place
      positive bounded.measure (by decide) (by decide) .toEven
    generalize same : Decimal.shortest .double .toEven significand
      (BinaryFormat.double.leastExponent + steps) = decimal at short
    obtain ⟨least, greatest⟩ := double_exponent_bounds bounded short positive
    have legible := @Decimal.IsShortFor.isLegible _ Binary64.window _ _ _ 15 _ short (by decide)
      rfl (by decide) least greatest
    obtain ⟨double, read⟩ := exists_scaled_spelled short.positive short.bounded greatest
    refine ⟨double, fun level blanks rest all ends => ?_⟩
    obtain ⟨before, rfl⟩ := Nat.exists_eq_succ_of_ne_zero some.ne'
    rw [Value.bytesAt, realBytes, Binary64.dataText?, value]
    simp only [RealValue.dataText?, same, Option.getD_some]
    exact numberText_run "f64" _ (Decimal.exists_bytesOf_windowedText _ _)
      ((Decimal.takeNumber_windowed legible ends).trans (finishScaled_run read rest)) rfl all

theorem double_begins {number : Binary64} (measure : number.IsMeasure) :
    BeginsWith (.double number) .digit := by
  intro level
  obtain ⟨significand, exponent, -, value, -⟩ := Binary64.value_of_sign measure
  obtain ⟨natural, tail, same⟩ : ∃ natural tail,
      (Value.double number).bytesAt level = digitBytes natural ++ tail := by
    rw [Value.bytesAt, realBytes, Binary64.dataText?, value]
    rcases significand with _ | before
    · exact zeroText_starts
    · exact Decimal.exists_bytesOf_windowedText _ _
  obtain ⟨first, others, digits⟩ := List.exists_cons_of_ne_nil (digitBytes_ne_nil natural)
  have digit : isDigit first = true := isDigit_of_mem_digitBytes (digits ▸ List.mem_cons_self)
  obtain ⟨symbol, visible, -⟩ := ofByte_digit digit
  exact ⟨first, others ++ tail, by rw [same, digits]; rfl, visible, symbol⟩

/-! ## Numbers that are not finite -/

theorem single_refuses {number : Binary32} (other : ¬number.IsFinite) :
    Refuses Reader.single (.single number) (.invalidType .null "f32") := by
  intro level blanks rest all _
  have bytes : bytesOf "null" = [0x6e, 0x75, 0x6c, 0x6c] := by decide +kernel
  have letter : Symbol.ofByte 0x6e = .letterN := by decide
  have taken : takeNull.run (0x6e :: 0x75 :: 0x6c :: 0x6c :: rest) = .ok ((), rest) := rfl
  have refused : (refuse "f32" : Reader Binary32).run (0x6e :: 0x75 :: 0x6c :: 0x6c :: rest) =
      .error (.invalidType .null "f32") := by
    rw [refuse, run_bind_ok (peek_run_here (by decide) _), letter]
    simp only
    rw [run_bind_ok taken]
    rfl
  rw [Value.bytesAt, realBytes, Binary32.dataText?_of_not_finite other, Option.getD_none, bytes,
    Reader.single, Reader.number]
  change (peek >>= _).run (blanks ++ 0x6e :: 0x75 :: 0x6c :: 0x6c :: rest) = _
  rw [run_bind_ok (peek_run all (by decide) _), letter]
  exact refused

end Json

end RangeRecall
