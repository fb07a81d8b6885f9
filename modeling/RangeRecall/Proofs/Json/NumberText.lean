import RangeRecall.Proofs.Decimal.Positional
import RangeRecall.Proofs.Json.Bytes

/-! Texts of numbers as readers take them apart. A text spells a significand and an exponent, and
it is read as the double for these. -/

namespace RangeRecall

namespace Json

/-! ## Runs of readers -/

theorem run_bind_ok {α β : Type} {reader : Reader α} {next : α → Reader β}
    {input rest : List UInt8} {value : α} (taken : reader.run input = .ok (value, rest)) :
    (reader >>= next).run input = (next value).run rest := by
  rw [StateT.run_bind, taken]
  rfl

theorem run_bind_error {α β : Type} {reader : Reader α} {next : α → Reader β}
    {input : List UInt8} {complaint : Complaint} (stopped : reader.run input = .error complaint) :
    (reader >>= next).run input = .error complaint := by
  rw [StateT.run_bind, stopped]
  rfl

namespace Reader

theorem peekByte_run (input : List UInt8) : peekByte.run input = .ok (input.head?, input) := rfl

theorem advance_run (byte : UInt8) (rest : List UInt8) :
    advance.run (byte :: rest) = .ok ((), rest) := rfl

theorem takeDigits_run {digits rest : List UInt8} (all : ∀ byte ∈ digits, isDigit byte = true)
    (ends : ∀ byte ∈ rest.head?, isDigit byte = false) :
    takeDigits.run (digits ++ rest) = .ok (digits, rest) := by
  have none : rest.takeWhile isDigit = [] ∧ rest.dropWhile isDigit = rest := by
    cases rest with
    | nil => exact ⟨rfl, rfl⟩
    | cons byte rest =>
        have other := ends byte rfl
        rw [List.takeWhile_cons_of_neg (by rw [other]; decide),
          List.dropWhile_cons_of_neg (by rw [other]; decide)]
        exact ⟨rfl, rfl⟩
  change Except.ok ((digits ++ rest).takeWhile isDigit, (digits ++ rest).dropWhile isDigit) = _
  rw [List.takeWhile_append_of_pos all, List.dropWhile_append_of_pos all, none.1, none.2,
    List.append_nil]

end Reader

def EndsValue (rest : List UInt8) : Prop :=
  ∀ byte ∈ rest.head?, byte = 0x2c ∨ byte = 0x0a

namespace EndsValue

variable {rest : List UInt8}

theorem isDigit_eq (ends : EndsValue rest) : ∀ byte ∈ rest.head?, isDigit byte = false := by
  intro byte mem
  rcases ends byte mem with rfl | rfl <;> decide

theorem head_ne (ends : EndsValue rest) : rest.head? ≠ some 0x2e := by
  intro point
  rcases ends _ point with same | same <;> cases same

theorem isExponentLetter_eq (ends : EndsValue rest) :
    Reader.isExponentLetter rest.head? = false := by
  rcases head : rest.head? with _ | byte
  · rfl
  · rcases ends byte head with rfl | rfl <;> decide

end EndsValue

/-! ## Numbers -/

namespace Reader

variable {negative : Bool} {natural power : Nat} {exponent : Int} {digits rest : List UInt8}

theorem takeNumber_digits (fits : natural ≤ greatestWord)
    (ends : ∀ byte ∈ rest.head?, isDigit byte = false) :
    (takeNumber negative).run (digitBytes natural ++ rest) =
      (if rest.head? = some 0x2e then do
        advance
        finishFraction negative natural 0
      else if isExponentLetter rest.head? then do
        advance
        finishExponent negative natural 0
      else return integerNumber negative natural : Reader Number).run rest := by
  have value := digitsValue_digitBytes 0 natural
  rw [Nat.mul_zero, Nat.zero_add] at value
  have appended := appendDigits_of_le (value.trans_le fits)
  rw [value] at appended
  rw [takeNumber, run_bind_ok (takeDigits_run (fun _ => isDigit_of_mem_digitBytes) ends)]
  split
  · rename_i none
    exact absurd none (digitBytes_ne_nil natural)
  · rename_i zero
    exact absurd zero digitBytes_no_leading_zero
  · rw [appended]
    simp only
    rw [run_bind_ok (peekByte_run rest)]
    rfl

theorem takeNumber_natural (fits : natural ≤ greatestWord) (ends : EndsValue rest) :
    (takeNumber negative).run (digitBytes natural ++ rest) =
      .ok (integerNumber negative natural, rest) := by
  rw [takeNumber_digits fits ends.isDigit_eq, if_neg ends.head_ne, ends.isExponentLetter_eq]
  rfl

theorem takeNumber_point (fits : natural ≤ greatestWord) :
    (takeNumber negative).run (digitBytes natural ++ 0x2e :: rest) =
      (finishFraction negative natural 0).run rest := by
  rw [takeNumber_digits fits (by rintro _ ⟨⟩; decide), List.head?_cons, if_pos rfl,
    run_bind_ok (advance_run _ _)]

theorem takeNumber_exponent (fits : natural ≤ greatestWord) :
    (takeNumber negative).run (digitBytes natural ++ 0x65 :: rest) =
      (finishExponent negative natural 0).run rest := by
  rw [takeNumber_digits fits (by rintro _ ⟨⟩; decide), List.head?_cons, if_neg (by decide),
    if_pos (by decide), run_bind_ok (advance_run _ _)]

theorem finishFraction_end (all : ∀ byte ∈ digits, isDigit byte = true) (some : digits ≠ [])
    (fits : digitsValue natural digits ≤ greatestWord) (ends : EndsValue rest) :
    (finishFraction negative natural exponent).run (digits ++ rest) =
      (finishScaled negative (digitsValue natural digits) (exponent - digits.length)).run rest := by
  rw [finishFraction, run_bind_ok (takeDigits_run all ends.isDigit_eq),
    if_neg (by simpa using some), appendDigits_of_le fits]
  simp only
  rw [run_bind_ok (peekByte_run rest), ends.isExponentLetter_eq]
  rfl

theorem finishFraction_exponent (all : ∀ byte ∈ digits, isDigit byte = true) (some : digits ≠ [])
    (fits : digitsValue natural digits ≤ greatestWord) :
    (finishFraction negative natural exponent).run (digits ++ 0x65 :: rest) =
      (finishExponent negative (digitsValue natural digits)
        (exponent - digits.length)).run rest := by
  rw [finishFraction, run_bind_ok (takeDigits_run all (by rintro _ ⟨⟩; decide)),
    if_neg (by simpa using some), appendDigits_of_le fits]
  simp only
  rw [run_bind_ok (peekByte_run _), List.head?_cons, if_pos (by decide),
    run_bind_ok (advance_run _ _)]
  rfl

def signByte (negative : Bool) : UInt8 :=
  if negative then 0x2d else 0x2b

theorem finishExponent_run (down : Bool) (fits : power ≤ greatestExponent) (ends : EndsValue rest) :
    (finishExponent negative natural exponent).run (signByte down :: digitBytes power ++ rest) =
      (finishScaled negative natural
        (if down then exponent - power else exponent + power)).run rest := by
  have value := digitsValue_digitBytes 0 power
  rw [Nat.mul_zero, Nat.zero_add] at value
  have appended := appendDigits_of_le (value.trans_le fits)
  rw [value] at appended
  have taken := takeDigits_run (fun _ => @isDigit_of_mem_digitBytes power _) ends.isDigit_eq
  have some : (digitBytes power).isEmpty = true → False := by
    simpa using digitBytes_ne_nil power
  rw [finishExponent, List.cons_append, run_bind_ok (peekByte_run _), List.head?_cons]
  cases down with
  | true =>
      rw [if_pos (by decide), run_bind_ok (advance_run _ _), run_bind_ok taken, if_neg some,
        appended]
      rfl
  | false =>
      rw [if_pos (by decide), run_bind_ok (advance_run _ _), run_bind_ok taken, if_neg some,
        appended]
      rfl

end Reader

end Json

/-! ## Decimals -/

namespace Decimal

open Json Json.Reader

variable {decimal : Decimal} {window : PositionalWindow} {negative : Bool} {rest : List UInt8}

/-- The decimal as its text spells it. A whole number is spelled with the fraction zero. -/
def spelled (window : PositionalWindow) (decimal : Decimal) : Decimal :=
  if window.least ≤ decimal.magnitude ∧ decimal.magnitude ≤ window.greatest ∧
      0 ≤ decimal.exponent then
    { digits := 10 * (decimal.digits * tenTo decimal.exponent.toNat), exponent := -1 }
  else decimal

theorem bytesOf_fraction (digits places : Nat) :
    bytesOf (naturalText (digits / tenTo places) ++ "." ++
      String.ofList (List.replicate (places - (naturalText (digits % tenTo places)).length) '0') ++
        naturalText (digits % tenTo places)) =
      digitBytes (digits / tenTo places) ++ 0x2e ::
        (List.replicate (places - (digitBytes (digits % tenTo places)).length) 0x30 ++
          digitBytes (digits % tenTo places)) := by
  have length : (naturalText (digits % tenTo places)).length =
      (digitBytes (digits % tenTo places)).length := by
    rw [naturalText, String.length_ofList, digitBytes, List.length_map]
  have point : bytesOf "." = [0x2e] := by decide +kernel
  have zeros : bytesOf (String.ofList (List.replicate
      (places - (digitBytes (digits % tenTo places)).length) '0')) =
        List.replicate (places - (digitBytes (digits % tenTo places)).length) 0x30 := by
    rw [bytesOf_ofList, List.map_replicate]
    · rfl
    · intro character mem
      rw [List.eq_of_mem_replicate mem]
      decide
  rw [length, bytesOf_append, bytesOf_append, bytesOf_append, bytesOf_naturalText,
    bytesOf_naturalText, point, zeros, List.append_assoc, List.append_assoc, List.singleton_append]

theorem digitsValue_fraction (digits : Nat) {places : Nat} (positive : 0 < places) :
    let fraction := List.replicate (places - (digitBytes (digits % tenTo places)).length) 0x30 ++
      digitBytes (digits % tenTo places)
    fraction.length = places ∧ digitsValue (digits / tenTo places) fraction = digits := by
  have same : List.replicate (places - (digitBytes (digits % tenTo places)).length) 0x30 ++
      digitBytes (digits % tenTo places) = (fractionDigits digits places).map Char.toUInt8 := by
    rw [digitBytes, fractionDigits, List.length_map, List.map_append, List.map_replicate]
    rfl
  dsimp only
  rw [same, List.length_map, digitsValue_map (areDigits_fractionDigits digits places).2]
  exact ⟨length_fractionDigits digits positive, ofDigitChars_fractionDigits digits positive⟩

theorem takeNumber_positional (fits : decimal.digits ≤ greatestWord)
    (fraction : decimal.exponent < 0) (ends : EndsValue rest) :
    (takeNumber negative).run (bytesOf decimal.positionalText ++ rest) =
      (finishScaled negative decimal.digits decimal.exponent).run rest := by
  have places : 0 < (-decimal.exponent).toNat := by omega
  obtain ⟨length, value⟩ := digitsValue_fraction decimal.digits places
  rw [positionalText, if_neg (not_le.mpr fraction)]
  simp only
  rw [bytesOf_fraction, List.append_assoc, List.cons_append,
    takeNumber_point ((Nat.div_le_self _ _).trans fits), finishFraction_end ?_ ?_ ?_ ends, value,
    length]
  · congr 2
    omega
  · intro byte mem
    rcases List.mem_append.mp mem with zero | digit
    · rw [List.eq_of_mem_replicate zero]
      decide
    · exact isDigit_of_mem_digitBytes digit
  · exact List.append_ne_nil_of_right_ne_nil _ (digitBytes_ne_nil _)
  · rwa [value]

theorem takeNumber_whole {natural : Nat} (fits : 10 * natural ≤ greatestWord)
    (ends : EndsValue rest) :
    (takeNumber negative).run (bytesOf (naturalText natural ++ ".0") ++ rest) =
      (finishScaled negative (10 * natural) (-1)).run rest := by
  have zero : bytesOf ".0" = [0x2e, 0x30] := by decide +kernel
  have value : digitsValue natural [0x30] = 10 * natural := by
    rw [digitsValue, List.foldl_cons, List.foldl_nil]
    rfl
  rw [bytesOf_append, bytesOf_naturalText, zero, List.append_assoc]
  change (takeNumber negative).run (digitBytes natural ++ 0x2e :: ([0x30] ++ rest)) = _
  have digit : ∀ byte ∈ [(0x30 : UInt8)], isDigit byte = true := by
    intro byte mem
    rw [List.mem_singleton.mp mem]
    decide
  rw [takeNumber_point (by omega), finishFraction_end digit (List.cons_ne_nil _ _)
    (value.trans_le fits) ends, value]
  rfl

theorem digitBytes_of_digit {character : Char} (digit : character.isDigit = true) :
    digitBytes (digitValue character.toUInt8) = [character.toUInt8] ∧
      digitValue character.toUInt8 < 10 := by
  have bounds := small_of_isDigit digit
  have value : digitValue character.toUInt8 = character.toNat - 48 := by
    rw [digitValue, toNat_toUInt8 digit]
  have less : character.toNat - 48 < 10 := by omega
  have same : Nat.digitChar (character.toNat - 48) = character := by
    rw [← Char.ofNat_toNat character]
    generalize character.toNat = point at bounds
    obtain ⟨low, high⟩ := bounds
    interval_cases point <;> rfl
  rw [value, digitBytes, Nat.toDigits_of_lt_base less, same]
  exact ⟨rfl, less⟩

def mantissaText (digits : Nat) : String :=
  match Nat.toDigits 10 digits with
  | [] => ""
  | [digit] => String.ofList [digit]
  | digit :: rest => String.ofList (digit :: '.' :: rest)

theorem scientificText_eq (decimal : Decimal) :
    decimal.scientificText = mantissaText decimal.digits ++ "e" ++
      (if decimal.magnitude < 0 then "-" else "+") ++ naturalText decimal.magnitude.natAbs := rfl

theorem bytesOf_mantissaText (digits : Nat) :
    (bytesOf (mantissaText digits) = digitBytes digits ∧ (digitBytes digits).length = 1) ∨
      ∃ first others, first < 10 ∧
        bytesOf (mantissaText digits) = digitBytes first ++ 0x2e :: others ∧ others ≠ [] ∧
        (∀ byte ∈ others, isDigit byte = true) ∧ digitsValue first others = digits ∧
        (digitBytes digits).length = others.length + 1 := by
  have value := digitsValue_digitBytes 0 digits
  rw [Nat.mul_zero, Nat.zero_add, digitBytes] at value
  have all (character : Char) (mem : character ∈ Nat.toDigits 10 digits) :
      character.isDigit = true :=
    Nat.isDigit_of_mem_toDigits (by decide) (by decide) mem
  rw [mantissaText]
  split
  · rename_i none
    exact absurd none Nat.toDigits_ne_nil
  · rename_i digit single
    left
    rw [← single]
    refine ⟨bytesOf_naturalText digits, ?_⟩
    rw [digitBytes, single]
    rfl
  · rename_i digit others several same
    rw [same] at all value
    obtain ⟨digitBytes_eq, small⟩ := digitBytes_of_digit (all digit List.mem_cons_self)
    refine .inr ⟨digitValue digit.toUInt8, others.map Char.toUInt8, small, ?_, ?_, ?_, ?_, ?_⟩
    · rw [digitBytes_eq, bytesOf_ofList]
      · rfl
      · intro character mem
        rcases List.mem_cons.mp mem with rfl | mem
        · have bounds := small_of_isDigit (all character List.mem_cons_self)
          omega
        · rcases List.mem_cons.mp mem with rfl | mem
          · decide
          · have bounds := small_of_isDigit (all character (List.mem_cons_of_mem _ mem))
            omega
    · intro none
      rw [List.map_eq_nil_iff] at none
      exact several none
    · intro byte mem
      obtain ⟨character, inside, rfl⟩ := List.mem_map.mp mem
      exact isDigit_toUInt8 (all character (List.mem_cons_of_mem _ inside))
    · rw [← value, List.map_cons, digitsValue, digitsValue, List.foldl_cons, Nat.mul_zero,
        Nat.zero_add]
    · rw [digitBytes, same, List.length_map, List.length_map, List.length_cons]

theorem takeNumber_mantissa (fits : decimal.digits ≤ greatestWord) (rest : List UInt8) :
    (takeNumber negative).run (bytesOf (mantissaText decimal.digits) ++ 0x65 :: rest) =
      (finishExponent negative decimal.digits
        (1 - (digitBytes decimal.digits).length)).run rest := by
  rcases bytesOf_mantissaText decimal.digits with
    ⟨bytes, length⟩ | ⟨first, others, small, bytes, some, digits, value, length⟩
  · rw [bytes, takeNumber_exponent fits, length]
    rfl
  · have word : first ≤ greatestWord := small.le.trans (by decide)
    rw [bytes, List.append_assoc, List.cons_append, takeNumber_point word,
      finishFraction_exponent digits some (value.trans_le fits), value, length]
    congr 2
    push_cast
    ring

theorem takeNumber_scientific (positive : 0 < decimal.digits)
    (fits : decimal.digits ≤ greatestWord) (small : decimal.magnitude.natAbs ≤ greatestExponent)
    (ends : EndsValue rest) :
    (takeNumber negative).run (bytesOf decimal.scientificText ++ rest) =
      (finishScaled negative decimal.digits decimal.exponent).run rest := by
  have count : decimal.magnitude =
      ((digitBytes decimal.digits).length : Int) - 1 + decimal.exponent := by
    rw [magnitude, digitCount_eq positive.ne']
  have letter : bytesOf "e" = [0x65] := by decide +kernel
  have sign : bytesOf (if decimal.magnitude < 0 then "-" else "+") =
      [signByte (decide (decimal.magnitude < 0))] := by
    split
    · rename_i down
      rw [decide_eq_true down]
      decide +kernel
    · rename_i up
      rw [decide_eq_false up]
      decide +kernel
  rw [scientificText_eq, bytesOf_append, bytesOf_append, bytesOf_append, letter, sign,
    bytesOf_naturalText, List.append_assoc, List.append_assoc, List.append_assoc,
    List.singleton_append,
    takeNumber_mantissa fits, List.singleton_append, ← List.cons_append,
    finishExponent_run _ small ends]
  congr 2
  rcases lt_or_ge decimal.magnitude 0 with down | up
  · rw [if_pos (decide_eq_true down)]
    omega
  · rw [if_neg (by simpa using up)]
    omega

/-- The text of the decimal has no more digits than the reader takes in. -/
structure IsLegible (decimal : Decimal) (window : PositionalWindow) : Prop where
  positive : 0 < decimal.digits
  fits : (decimal.spelled window).digits ≤ greatestWord
  magnitude : decimal.magnitude.natAbs ≤ greatestExponent

theorem takeNumber_windowed (legible : decimal.IsLegible window) (ends : EndsValue rest) :
    (takeNumber negative).run (bytesOf (decimal.windowedText window) ++ rest) =
      (finishScaled negative (decimal.spelled window).digits
        (decimal.spelled window).exponent).run rest := by
  obtain ⟨positive, fits, small⟩ := legible
  rw [spelled] at fits ⊢
  rw [windowedText]
  split
  · rename_i inside
    split
    · rename_i whole
      rw [if_pos ⟨inside.1, inside.2, whole⟩] at fits ⊢
      rw [positionalText, if_pos whole]
      exact takeNumber_whole fits ends
    · rename_i fraction
      rw [if_neg fun all => fraction all.2.2] at fits ⊢
      exact takeNumber_positional fits (not_le.mp fraction) ends
  · rename_i outside
    rw [if_neg fun all => outside ⟨all.1, all.2.1⟩] at fits ⊢
    exact takeNumber_scientific positive fits small ends

theorem exists_bytesOf_windowedText (window : PositionalWindow) (decimal : Decimal) :
    ∃ natural tail, bytesOf (decimal.windowedText window) = digitBytes natural ++ tail := by
  have append {text : String} (other : String)
      (digits : ∃ natural tail, bytesOf text = digitBytes natural ++ tail) :
      ∃ natural tail, bytesOf (text ++ other) = digitBytes natural ++ tail := by
    obtain ⟨natural, tail, same⟩ := digits
    exact ⟨natural, tail ++ bytesOf other, by rw [bytesOf_append, same, List.append_assoc]⟩
  have whole (natural : Nat) :
      ∃ first tail, bytesOf (naturalText natural) = digitBytes first ++ tail :=
    ⟨natural, [], by rw [bytesOf_naturalText, List.append_nil]⟩
  have positional : ∃ natural tail,
      bytesOf decimal.positionalText = digitBytes natural ++ tail := by
    rw [positionalText]
    split
    · exact whole _
    · exact append _ (append _ (append _ (whole _)))
  rw [windowedText]
  split
  · split
    · exact append _ positional
    · exact positional
  · rw [scientificText_eq]
    refine append _ (append _ (append _ ?_))
    rcases bytesOf_mantissaText decimal.digits with ⟨bytes, -⟩ | ⟨first, others, -, bytes, -⟩
    · exact ⟨decimal.digits, [], by rw [bytes, List.append_nil]⟩
    · exact ⟨first, _, bytes⟩

end Decimal

end RangeRecall
