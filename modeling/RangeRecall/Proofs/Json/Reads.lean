import RangeRecall.Json.Typed
import RangeRecall.Proofs.Json.NumberText

/-! Readers and the values that they take. A value may stand at any level, with blanks before it,
and it ends before a comma or a line feed. -/

namespace RangeRecall

namespace Json

open Reader

def Reads {α : Type} (reader : Reader α) (json : Value) (value : α) : Prop :=
  ∀ level blanks rest, (∀ byte ∈ blanks, isBlank byte = true) → EndsValue rest →
    reader.run (blanks ++ (json.bytesAt level ++ rest)) = .ok (value, rest)

def Refuses {α : Type} (reader : Reader α) (json : Value) (complaint : Complaint) : Prop :=
  ∀ level blanks rest, (∀ byte ∈ blanks, isBlank byte = true) → EndsValue rest →
    reader.run (blanks ++ (json.bytesAt level ++ rest)) = .error complaint

variable {α : Type} {blanks rest : List UInt8}

/-! ## The symbol ahead -/

theorem skipBlanks_run (all : ∀ byte ∈ blanks, isBlank byte = true) {byte : UInt8}
    (visible : isBlank byte = false) (rest : List UInt8) :
    skipBlanks.run (blanks ++ byte :: rest) = .ok ((), byte :: rest) := by
  change Except.ok ((), (blanks ++ byte :: rest).dropWhile isBlank) = _
  rw [List.dropWhile_append_of_pos all, List.dropWhile_cons_of_neg (by rw [visible]; decide)]

theorem peek_run (all : ∀ byte ∈ blanks, isBlank byte = true) {byte : UInt8}
    (visible : isBlank byte = false) (rest : List UInt8) :
    peek.run (blanks ++ byte :: rest) = .ok (some (Symbol.ofByte byte), byte :: rest) := by
  rw [peek, run_bind_ok (skipBlanks_run all visible rest), run_bind_ok (peekByte_run _)]
  rfl

theorem peek_run_here {byte : UInt8} (visible : isBlank byte = false) (rest : List UInt8) :
    peek.run (byte :: rest) = .ok (some (Symbol.ofByte byte), byte :: rest) :=
  @peek_run [] (by simp) byte visible rest

theorem ofByte_digit {byte : UInt8} (digit : isDigit byte = true) :
    Symbol.ofByte byte = .digit ∧ isBlank byte = false ∧ byte ≠ 0x2d := by
  refine ⟨by rw [Symbol.ofByte, if_pos digit], ?_, ?_⟩
  · simp only [isDigit, Bool.and_eq_true, decide_eq_true_eq, UInt8.le_iff_toNat_le] at digit
    have small : byte.toNat ≠ 0x20 ∧ byte.toNat ≠ 0x0a ∧ byte.toNat ≠ 0x09 ∧ byte.toNat ≠ 0x0d := by
      have low : (0x30 : UInt8).toNat = 48 := rfl
      omega
    simp only [isBlank, Bool.or_eq_false_iff, beq_eq_false_iff_ne, Ne, ← UInt8.toNat_inj]
    exact ⟨⟨⟨small.1, small.2.1⟩, small.2.2.1⟩, small.2.2.2⟩
  · rintro rfl
    cases digit

/-! ## Numbers -/

def signBytes (negative : Bool) : List UInt8 :=
  if negative then [0x2d] else []

theorem number_run (expected : String) (convert : Number → Except Complaint α) (negative : Bool)
    (all : ∀ byte ∈ blanks, isBlank byte = true) (natural : Nat) (rest : List UInt8) :
    (number expected convert).run (blanks ++ (signBytes negative ++ (digitBytes natural ++ rest))) =
      (do (convert (← takeNumber negative) : Except Complaint α) : Reader α).run
        (digitBytes natural ++ rest) := by
  obtain ⟨first, others, same⟩ := List.exists_cons_of_ne_nil (digitBytes_ne_nil natural)
  have digit : isDigit first = true := isDigit_of_mem_digitBytes (same ▸ List.mem_cons_self)
  obtain ⟨symbol, visible, notMinus⟩ := ofByte_digit digit
  cases negative with
  | true =>
      have minus : Symbol.ofByte 0x2d = .minus := by decide
      rw [number]
      change (peek >>= _).run (blanks ++ 0x2d :: (digitBytes natural ++ rest)) = _
      rw [run_bind_ok (peek_run all (by decide) _), minus]
      simp only
      rw [takeSignedNumber, bind_assoc, run_bind_ok (peekByte_run _), List.head?_cons,
        if_pos rfl, bind_assoc, run_bind_ok (advance_run _ _)]
  | false =>
      rw [number]
      change (peek >>= _).run (blanks ++ (digitBytes natural ++ rest)) = _
      rw [same, List.cons_append, run_bind_ok (peek_run all visible _), symbol]
      simp only
      rw [takeSignedNumber, bind_assoc, run_bind_ok (peekByte_run _), List.head?_cons,
        if_neg (by simpa using notMinus)]

theorem natural_reads {expected : String} {limit natural : Nat} (less : natural < limit)
    (word : limit ≤ wordLimit) :
    Reads (Reader.natural expected limit) (.integer natural) natural := by
  intro level blanks rest all ends
  have bytes : (Value.integer natural).bytesAt level = digitBytes natural := by
    rw [Value.bytesAt, Decimal.integerText, if_neg (by omega), Int.natAbs_natCast,
      bytesOf_naturalText]
  have fits : natural ≤ greatestWord := by
    rw [greatestWord]
    omega
  rw [bytes, Reader.natural]
  refine (number_run expected _ false all natural rest).trans ?_
  rw [run_bind_ok (takeNumber_natural fits ends)]
  simp only [integerNumber, Bool.not_false, if_true, if_pos less]
  rfl

/-! ## Whole documents -/

theorem parse_render [Document α] {value read : α}
    (reads : Reads (Document.reader : Reader α) (Document.toValue value) read) :
    parse (render value) = .ok read := by
  have ends : EndsValue [0x0a] := by
    rintro byte ⟨⟩
    exact .inr rfl
  have taken := reads 0 [] [0x0a] (by simp) ends
  rw [List.nil_append] at taken
  rw [parse, render, Value.toBytes, taken]
  rfl

theorem parse_render_error [Document α] {value : α} {complaint : Complaint}
    (refuses : Refuses (Document.reader : Reader α) (Document.toValue value) complaint) :
    (parse (render value) : Except Complaint α) = .error complaint := by
  have ends : EndsValue [0x0a] := by
    rintro byte ⟨⟩
    exact .inr rfl
  have stopped := refuses 0 [] [0x0a] (by simp) ends
  rw [List.nil_append] at stopped
  rw [parse, render, Value.toBytes, stopped]
  rfl

end Json

end RangeRecall
