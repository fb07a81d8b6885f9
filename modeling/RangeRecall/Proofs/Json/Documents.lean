import RangeRecall.Proofs.Json.Reads

/-! Documents as readers take them apart: texts, lists, and records member by member. -/

namespace RangeRecall

namespace Json

open Reader

variable {blanks rest : List UInt8}

theorem lineStart_blank (level : Nat) : ∀ byte ∈ lineStart level, isBlank byte = true := by
  intro byte mem
  rcases List.mem_cons.mp mem with rfl | mem
  · decide
  · rw [List.eq_of_mem_replicate mem]
    decide

theorem endsValue_lineStart (level : Nat) (rest : List UInt8) :
    EndsValue (lineStart level ++ rest) := by
  rintro byte ⟨⟩
  exact .inr rfl

theorem endsValue_comma (rest : List UInt8) : EndsValue (0x2c :: rest) := by
  rintro byte ⟨⟩
  exact .inl rfl

/-! ## Texts -/

def IsPlainByte (byte : UInt8) : Prop :=
  ¬byte < 0x20 ∧ byte ≠ 0x22 ∧ byte ≠ 0x5c

instance (byte : UInt8) : Decidable (IsPlainByte byte) :=
  inferInstanceAs (Decidable (_ ∧ _))

def IsPlain (text : String) : Prop :=
  ∀ byte ∈ bytesOf text, IsPlainByte byte

instance (text : String) : Decidable (IsPlain text) :=
  inferInstanceAs (Decidable (∀ byte ∈ bytesOf text, IsPlainByte byte))

theorem escapedByte_of_plain {byte : UInt8} (plain : IsPlainByte byte) :
    escapedByte byte = [byte] := by
  obtain ⟨visible, notQuote, notBackslash⟩ := plain
  rw [UInt8.lt_iff_toNat_lt] at visible
  rw [Ne, ← UInt8.toNat_inj] at notQuote notBackslash
  change ¬byte.toNat < 32 at visible
  change byte.toNat ≠ 34 at notQuote
  change byte.toNat ≠ 92 at notBackslash
  rw [escapedByte]
  split
  · contradiction
  · contradiction
  all_goals try omega
  rw [if_neg visible]

theorem quotedBytes_of_plain {text : String} (plain : IsPlain text) :
    quotedBytes text = 0x22 :: (bytesOf text ++ [0x22]) := by
  have same : (bytesOf text).flatMap escapedByte = bytesOf text := by
    have all : ∀ bytes : List UInt8, (∀ byte ∈ bytes, IsPlainByte byte) →
        bytes.flatMap escapedByte = bytes := by
      intro bytes plain
      induction bytes with
      | nil => rfl
      | cons byte bytes ih =>
          rw [List.flatMap_cons, escapedByte_of_plain (plain byte List.mem_cons_self),
            ih fun other mem => plain other (List.mem_cons_of_mem _ mem)]
          rfl
    exact all _ plain
  rw [quotedBytes, same]
  rfl

theorem takePiece_plain {byte : UInt8} (plain : IsPlainByte byte) (pieces : List (List UInt8))
    (rest : List UInt8) :
    (takePiece takeEscape pieces).run (byte :: rest) = .ok (.inl ([byte] :: pieces), rest) := by
  obtain ⟨visible, notQuote, notBackslash⟩ := plain
  have next : nextByte.run (byte :: rest) = .ok (some byte, rest) := rfl
  rw [takePiece, run_bind_ok next]
  split
  · contradiction
  · rename_i same
    exact absurd (Option.some.inj same) notQuote
  · rename_i same
    exact absurd (Option.some.inj same) notBackslash
  · rename_i same
    obtain rfl := Option.some.inj same
    rw [if_neg visible]
    rfl

theorem takePieces_run {bytes : List UInt8} (plain : ∀ byte ∈ bytes, IsPlainByte byte)
    (pieces : List (List UInt8)) {limit : Nat} (enough : bytes.length < limit) (rest : List UInt8) :
    (repeatAtMost (takePiece takeEscape) limit pieces).run (bytes ++ 0x22 :: rest) =
      .ok (pieces.reverse.flatten ++ bytes, rest) := by
  induction bytes generalizing pieces limit with
  | nil =>
      obtain ⟨limit, rfl⟩ := Nat.exists_eq_add_one_of_ne_zero (Nat.ne_zero_of_lt enough)
      have last : (takePiece takeEscape pieces).run (0x22 :: rest) =
          .ok (.inr pieces.reverse.flatten, rest) := rfl
      rw [repeatAtMost, List.nil_append, run_bind_ok last, List.append_nil]
      rfl
  | cons byte bytes ih =>
      obtain ⟨limit, rfl⟩ := Nat.exists_eq_add_one_of_ne_zero (Nat.ne_zero_of_lt enough)
      rw [repeatAtMost, List.cons_append,
        run_bind_ok (takePiece_plain (plain byte List.mem_cons_self) pieces _)]
      refine (ih (fun other mem => plain other (List.mem_cons_of_mem _ mem)) _
        (Nat.lt_of_succ_lt_succ enough)).trans ?_
      rw [List.reverse_cons, List.flatten_append, List.append_assoc]
      rfl

theorem takeText_run {text : String} (plain : IsPlain text) (rest : List UInt8) :
    takeText.run (bytesOf text ++ 0x22 :: rest) = .ok (text, rest) := by
  have bytes : (repeatUntil (takePiece takeEscape) []).run (bytesOf text ++ 0x22 :: rest) =
      .ok (bytesOf text, rest) := by
    refine takePieces_run plain [] ?_ rest
    rw [List.length_append]
    omega
  rw [takeText, run_bind_ok bytes, fromUTF8?_bytesOf]
  rfl

theorem bytesAt_text {text : String} (plain : IsPlain text) (level : Nat) (rest : List UInt8) :
    (Value.text text).bytesAt level ++ rest = 0x22 :: (bytesOf text ++ 0x22 :: rest) := by
  rw [Value.bytesAt, quotedBytes_of_plain plain, List.cons_append, List.append_assoc]
  rfl

theorem choice_reads {α : Type} {variants : List (Variant α)} {text : String} {variant : Variant α}
    {value : α} (plain : IsPlain text)
    (known : (variants.find? fun variant => variant.name = text) = some variant)
    (bare : variant.bare = .ok value) : Reads (choice variants) (.text text) value := by
  intro level blanks rest all _
  have quote : Symbol.ofByte 0x22 = .quote := by decide
  have found : (findVariant variants text).run rest = .ok (variant, rest) := by
    rw [findVariant, known]
    rfl
  rw [bytesAt_text plain, choice, run_bind_ok (peek_run all (by decide) _), quote]
  simp only
  rw [run_bind_ok (advance_run _ _), run_bind_ok (takeText_run plain rest), run_bind_ok found, bare]
  rfl

/-! ## Null -/

theorem optional_reads_null {α : Type} (reader : Reader α) :
    Reads (optional reader) .null none := by
  intro level blanks rest all _
  have bytes : bytesOf "null" = [0x6e, 0x75, 0x6c, 0x6c] := by decide +kernel
  have letter : Symbol.ofByte 0x6e = .letterN := by decide
  have taken : takeNull.run (0x6e :: 0x75 :: 0x6c :: 0x6c :: rest) = .ok ((), rest) := rfl
  rw [Value.bytesAt, bytes, Reader.optional]
  change (peek >>= _).run (blanks ++ 0x6e :: 0x75 :: 0x6c :: 0x6c :: rest) = _
  rw [run_bind_ok (peek_run all (by decide) _), letter]
  simp only
  rw [run_bind_ok taken]
  rfl

def BeginsWith (json : Value) (symbol : Symbol) : Prop :=
  ∀ level, ∃ byte tail, json.bytesAt level = byte :: tail ∧ isBlank byte = false ∧
    Symbol.ofByte byte = symbol

theorem object_begins (members : List (String × Value)) :
    BeginsWith (.object members) .openObject := by
  intro level
  refine ⟨0x7b, ?_⟩
  cases members with
  | nil => exact ⟨_, by rw [Value.bytesAt], by decide, by decide⟩
  | cons first others => exact ⟨_, by rw [Value.bytesAt]; rfl, by decide, by decide⟩

theorem list_begins (items : List Value) : BeginsWith (.list items) .openList := by
  intro level
  refine ⟨0x5b, ?_⟩
  cases items with
  | nil => exact ⟨_, by rw [Value.bytesAt], by decide, by decide⟩
  | cons first others => exact ⟨_, by rw [Value.bytesAt]; rfl, by decide, by decide⟩

theorem optional_reads {α : Type} {reader : Reader α} {json : Value} {value : α} {symbol : Symbol}
    (reads : Reads reader json value) (begins : BeginsWith json symbol)
    (other : symbol ≠ .letterN) : Reads (optional reader) json (some value) := by
  intro level blanks rest all ends
  obtain ⟨byte, tail, same, visible, first⟩ := begins level
  have taken := reads level [] rest (by simp) ends
  rw [same, List.nil_append, List.cons_append] at taken
  rw [same, Reader.optional, List.cons_append, run_bind_ok (peek_run all visible _), first]
  split
  · rename_i letter
    exact absurd (Option.some.inj letter) other
  · rw [run_bind_ok taken]
    rfl

/-! ## Records -/

inductive Fills {δ α : Type} (form : RecordForm δ α) : δ → List (String × Value) → δ → Prop
  | nil (draft : δ) : Fills form draft [] draft
  | cons {draft next last : δ} {name : String} {json : Value}
      {members : List (String × Value)} {field : RecordField δ} (plain : IsPlain name)
      (known : (form.fields.find? fun field => field.name = name) = some field)
      (absent : field.isPresent draft = false) (taken : Reads (field.store draft) json next)
      (others : Fills form next members last) : Fills form draft ((name, json) :: members) last

section

variable {δ α : Type} {form : RecordForm δ α}

theorem takeMember_named {draft : δ} {name : String} {field : RecordField δ} {isFirst : Bool}
    {input : List UInt8} (known : (form.fields.find? fun field => field.name = name) = some field)
    (absent : field.isPresent draft = false)
    (named : (nextName? isFirst).run input = .ok (some name, 0x3a :: 0x20 :: rest)) :
    (takeMember form (isFirst, draft)).run input =
      (do return .inl (false, ← field.store draft) : Reader ((Bool × δ) ⊕ δ)).run
        ([0x20] ++ rest) := by
  have colon : Symbol.ofByte 0x3a = .colon := by decide
  rw [takeMember, run_bind_ok named]
  simp only [known, absent, Bool.false_eq_true, if_false]
  rw [takeColon, bind_assoc, run_bind_ok (peek_run_here (by decide) _), colon]
  simp only
  rw [run_bind_ok (advance_run _ _)]
  rfl

theorem takeMember_run {draft next : δ} {name : String} {json : Value} {field : RecordField δ}
    {isFirst : Bool} {input : List UInt8}
    (known : (form.fields.find? fun field => field.name = name) = some field)
    (absent : field.isPresent draft = false) (taken : Reads (field.store draft) json next)
    {level : Nat} (ends : EndsValue rest)
    (named : (nextName? isFirst).run input =
      .ok (some name, 0x3a :: 0x20 :: (json.bytesAt level ++ rest))) :
    (takeMember form (isFirst, draft)).run input = .ok (.inl (false, next), rest) := by
  have stored := taken level [0x20] rest (List.forall_mem_singleton.mpr rfl) ends
  rw [takeMember_named known absent named, run_bind_ok stored]
  rfl

theorem takeMember_last {draft : δ} (isFirst : Bool) (all : ∀ byte ∈ blanks, isBlank byte = true)
    (rest : List UInt8) :
    (takeMember form (isFirst, draft)).run (blanks ++ 0x7d :: rest) =
      .ok (.inr draft, 0x7d :: rest) := by
  have close : Symbol.ofByte 0x7d = .closeObject := by decide
  have named : (nextName? isFirst).run (blanks ++ 0x7d :: rest) = .ok (none, 0x7d :: rest) := by
    rw [nextName?, run_bind_ok (peek_run all (by decide) _), close]
    rfl
  rw [takeMember, run_bind_ok named]
  rfl

theorem nextName?_later {name : String} (plain : IsPlain name) (level : Nat) (rest : List UInt8) :
    (nextName? false).run (0x2c :: (lineStart level ++ (quotedBytes name ++ rest))) =
      .ok (some name, rest) := by
  have comma : Symbol.ofByte 0x2c = .comma := by decide
  have quote : Symbol.ofByte 0x22 = .quote := by decide
  rw [quotedBytes_of_plain plain, nextName?, run_bind_ok (peek_run_here (by decide) _), comma]
  simp only [Bool.false_eq_true, if_false, if_true]
  rw [run_bind_ok (advance_run _ _)]
  change (peek >>= _).run (lineStart level ++ 0x22 :: (bytesOf name ++ [0x22] ++ rest)) = _
  rw [run_bind_ok (peek_run (lineStart_blank level) (by decide) _), quote]
  simp only
  rw [run_bind_ok (advance_run _ _), List.append_assoc, List.singleton_append,
    run_bind_ok (takeText_run plain rest)]
  rfl

theorem nextName?_first {name : String} (plain : IsPlain name) (level : Nat) (rest : List UInt8) :
    (nextName? true).run (lineStart level ++ (quotedBytes name ++ rest)) =
      .ok (some name, rest) := by
  have quote : Symbol.ofByte 0x22 = .quote := by decide
  rw [quotedBytes_of_plain plain, nextName?]
  change (peek >>= _).run (lineStart level ++ 0x22 :: (bytesOf name ++ [0x22] ++ rest)) = _
  rw [run_bind_ok (peek_run (lineStart_blank level) (by decide) _), quote]
  simp only [if_true]
  rw [run_bind_ok (advance_run _ _), List.append_assoc, List.singleton_append,
    run_bind_ok (takeText_run plain rest)]
  rfl

theorem endsValue_members (level outer : Nat) (members : List (String × Value))
    (rest : List UInt8) :
    EndsValue (Value.membersBytes level members ++ (lineStart outer ++ rest)) := by
  cases members with
  | nil =>
      rw [Value.membersBytes]
      exact endsValue_lineStart outer rest
  | cons first others =>
      rw [Value.membersBytes]
      exact endsValue_comma _

theorem takeMembers_run {draft last : δ} {members : List (String × Value)}
    (fills : Fills form draft members last) {limit : Nat} (enough : members.length < limit)
    (level outer : Nat) (rest : List UInt8) :
    (repeatAtMost (takeMember form) limit (false, draft)).run
        (Value.membersBytes level members ++ (lineStart outer ++ 0x7d :: rest)) =
      .ok (last, 0x7d :: rest) := by
  induction fills generalizing limit with
  | nil draft =>
      obtain ⟨limit, rfl⟩ := Nat.exists_eq_add_one_of_ne_zero (Nat.ne_zero_of_lt enough)
      rw [repeatAtMost, Value.membersBytes, List.nil_append,
        run_bind_ok (takeMember_last false (lineStart_blank outer) rest)]
      rfl
  | @cons draft next last name json members field plain known absent taken others ih =>
      obtain ⟨limit, rfl⟩ := Nat.exists_eq_add_one_of_ne_zero (Nat.ne_zero_of_lt enough)
      have named := nextName?_later plain level (0x3a :: 0x20 :: (json.bytesAt level ++
        (Value.membersBytes level members ++ (lineStart outer ++ 0x7d :: rest))))
      have step := takeMember_run known absent taken
        (endsValue_members level outer members (0x7d :: rest)) named
      have bytes : Value.membersBytes level ((name, json) :: members) ++
          (lineStart outer ++ 0x7d :: rest) =
          0x2c :: (lineStart level ++ (quotedBytes name ++ (0x3a :: 0x20 :: (json.bytesAt level ++
            (Value.membersBytes level members ++ (lineStart outer ++ 0x7d :: rest)))))) := by
        rw [Value.membersBytes, Value.memberBytes]
        simp only [List.cons_append, List.append_assoc, List.nil_append]
      rw [bytes, repeatAtMost, run_bind_ok step]
      exact ih (Nat.lt_of_succ_lt_succ enough)

theorem length_le_membersBytes (level : Nat) (members : List (String × Value)) :
    members.length ≤ (Value.membersBytes level members).length := by
  induction members with
  | nil => exact Nat.zero_le _
  | cons first others ih =>
      rw [Value.membersBytes]
      simp only [List.length_cons, List.length_append]
      omega

theorem bytesAt_object (name : String) (json : Value) (others : List (String × Value))
    (level : Nat) (rest : List UInt8) :
    (Value.object ((name, json) :: others)).bytesAt level ++ rest =
      0x7b :: (lineStart (level + 1) ++ (quotedBytes name ++ (0x3a :: 0x20 ::
        (json.bytesAt (level + 1) ++ (Value.membersBytes (level + 1) others ++
          (lineStart level ++ 0x7d :: rest)))))) := by
  rw [Value.bytesAt, Value.memberBytes]
  simp only [List.cons_append, List.append_assoc, List.nil_append]

theorem record_run (all : ∀ byte ∈ blanks, isBlank byte = true) (input : List UInt8) :
    (record form).run (blanks ++ 0x7b :: input) =
      (do
        let draft ← repeatUntil (takeMember form) (true, form.blank)
        let value ← (form.complete draft : Except _ _)
        endObject
        return value : Reader α).run input := by
  have openObject : Symbol.ofByte 0x7b = .openObject := by decide
  rw [record, run_bind_ok (peek_run all (by decide) _), openObject]
  simp only
  rw [run_bind_ok (advance_run _ _)]

theorem record_reads {last : δ} {value : α} {first : String × Value}
    {others : List (String × Value)} (fills : Fills form form.blank (first :: others) last)
    (complete : form.complete last = .ok value) :
    Reads (record form) (.object (first :: others)) value := by
  intro level blanks rest all _
  have close : Symbol.ofByte 0x7d = .closeObject := by decide
  cases fills with
  | @cons _ next _ name json _ field plain known absent taken filled =>
      have named := nextName?_first plain (level + 1) (0x3a :: 0x20 :: (json.bytesAt (level + 1) ++
        (Value.membersBytes (level + 1) others ++ (lineStart level ++ 0x7d :: rest))))
      have step := takeMember_run known absent taken
        (endsValue_members (level + 1) level others (0x7d :: rest)) named
      have filling : (repeatUntil (takeMember form) (true, form.blank)).run
          (lineStart (level + 1) ++ (quotedBytes name ++ (0x3a :: 0x20 ::
            (json.bytesAt (level + 1) ++ (Value.membersBytes (level + 1) others ++
              (lineStart level ++ 0x7d :: rest)))))) = .ok (last, 0x7d :: rest) := by
        change (repeatAtMost (takeMember form) (List.length _ + 1) (true, form.blank)).run _ = _
        rw [repeatAtMost, run_bind_ok step]
        refine takeMembers_run filled ?_ (level + 1) level rest
        have short := length_le_membersBytes (level + 1) others
        simp only [List.length_append, List.length_cons]
        omega
      have ending : (endObject : Reader Unit).run (0x7d :: rest) = .ok ((), rest) := by
        rw [endObject, run_bind_ok (peek_run_here (by decide) _), close]
        rfl
      rw [bytesAt_object, record_run all, run_bind_ok filling, complete]
      change (endObject >>= fun _ => pure value).run (0x7d :: rest) = _
      rw [run_bind_ok ending]
      rfl

theorem record_refuses_first {name : String} {json : Value} {others : List (String × Value)}
    {field : RecordField δ} {complaint : Complaint} (plain : IsPlain name)
    (known : (form.fields.find? fun field => field.name = name) = some field)
    (absent : field.isPresent form.blank = false)
    (refuses : Refuses (field.store form.blank) json complaint) :
    Refuses (record form) (.object ((name, json) :: others)) complaint := by
  intro level blanks rest all _
  have stopped := refuses (level + 1) [0x20]
    (Value.membersBytes (level + 1) others ++ (lineStart level ++ 0x7d :: rest))
    (List.forall_mem_singleton.mpr rfl) (endsValue_members (level + 1) level others (0x7d :: rest))
  have named := nextName?_first plain (level + 1) (0x3a :: 0x20 :: (json.bytesAt (level + 1) ++
    (Value.membersBytes (level + 1) others ++ (lineStart level ++ 0x7d :: rest))))
  have filling : (repeatUntil (takeMember form) (true, form.blank)).run
      (lineStart (level + 1) ++ (quotedBytes name ++ (0x3a :: 0x20 ::
        (json.bytesAt (level + 1) ++ (Value.membersBytes (level + 1) others ++
          (lineStart level ++ 0x7d :: rest)))))) = .error complaint := by
    change (repeatAtMost (takeMember form) (List.length _ + 1) (true, form.blank)).run _ = _
    refine run_bind_error ?_
    rw [takeMember_named known absent named, run_bind_error stopped]
  rw [bytesAt_object, record_run all, run_bind_error filling]

theorem store_reads {β : Type} {name : String} {reader : Reader β} {getField : δ → Option β}
    {setField : δ → β → δ} {json : Value} {value : β} (reads : Reads reader json value)
    (draft : δ) :
    Reads ((RecordField.ofReader name reader getField setField).store draft) json
      (setField draft value) := by
  intro level blanks rest all ends
  rw [RecordField.ofReader, run_bind_ok (reads level blanks rest all ends)]
  rfl

theorem store_refuses {β : Type} {name : String} {reader : Reader β} {getField : δ → Option β}
    {setField : δ → β → δ} {json : Value} {complaint : Complaint}
    (refuses : Refuses reader json complaint) (draft : δ) :
    Refuses ((RecordField.ofReader name reader getField setField).store draft) json complaint := by
  intro level blanks rest all ends
  rw [RecordField.ofReader, run_bind_error (refuses level blanks rest all ends)]

end

/-! ## Lists -/

section

variable {α : Type} {reader : Reader α}

theorem hasNextItem_last (isFirst : Bool) (all : ∀ byte ∈ blanks, isBlank byte = true)
    (rest : List UInt8) :
    (hasNextItem isFirst).run (blanks ++ 0x5d :: rest) = .ok (false, 0x5d :: rest) := by
  have close : Symbol.ofByte 0x5d = .closeList := by decide
  rw [hasNextItem, run_bind_ok (peek_run all (by decide) _), close]
  rfl

variable {json : Value} {value : α} {symbol : Symbol}

theorem hasNextItem_first (begins : BeginsWith json symbol) (other : symbol ≠ .closeList)
    (all : ∀ byte ∈ blanks, isBlank byte = true) (level : Nat) (rest : List UInt8) :
    (hasNextItem true).run (blanks ++ (json.bytesAt level ++ rest)) =
      .ok (true, json.bytesAt level ++ rest) := by
  obtain ⟨byte, tail, same, visible, first⟩ := begins level
  rw [same, List.cons_append, hasNextItem, run_bind_ok (peek_run all visible _), first]
  split
  · contradiction
  · rename_i last
    exact absurd (Option.some.inj last) other
  · rfl

theorem hasNextItem_later (begins : BeginsWith json symbol) (other : symbol ≠ .closeList)
    (level : Nat) (rest : List UInt8) :
    (hasNextItem false).run (0x2c :: (lineStart level ++ (json.bytesAt level ++ rest))) =
      .ok (true, json.bytesAt level ++ rest) := by
  have comma : Symbol.ofByte 0x2c = .comma := by decide
  obtain ⟨byte, tail, same, visible, first⟩ := begins level
  rw [same, List.cons_append, hasNextItem, run_bind_ok (peek_run_here (by decide) _), comma]
  simp only [Bool.false_eq_true, if_false, if_true]
  rw [run_bind_ok (advance_run _ _), run_bind_ok (peek_run (lineStart_blank level) visible _),
    first]
  split
  · contradiction
  · rename_i last
    exact absurd (Option.some.inj last) other
  · rfl

inductive TakenAs (reader : Reader α) : List Value → List α → Prop
  | nil : TakenAs reader [] []
  | cons {json : Value} {value : α} {symbol : Symbol} {items : List Value} {values : List α}
      (reads : Reads reader json value) (begins : BeginsWith json symbol)
      (other : symbol ≠ .closeList) (others : TakenAs reader items values) :
      TakenAs reader (json :: items) (value :: values)

theorem takeItem_run {items : List α} {input : List UInt8} {level : Nat}
    (reads : Reads reader json value) (ends : EndsValue rest)
    (next : (hasNextItem items.isEmpty).run input = .ok (true, json.bytesAt level ++ rest)) :
    (takeItem reader items).run input = .ok (.inl (value :: items), rest) := by
  have taken := reads level [] rest (by simp) ends
  rw [List.nil_append] at taken
  rw [takeItem, run_bind_ok next, if_pos rfl, run_bind_ok taken]
  rfl

theorem takeItem_last (items : List α) (all : ∀ byte ∈ blanks, isBlank byte = true)
    (rest : List UInt8) :
    (takeItem reader items).run (blanks ++ 0x5d :: rest) =
      .ok (.inr items.reverse, 0x5d :: rest) := by
  rw [takeItem, run_bind_ok (hasNextItem_last _ all rest)]
  rfl

theorem endsValue_items (level outer : Nat) (items : List Value) (rest : List UInt8) :
    EndsValue (Value.itemBytes level items ++ (lineStart outer ++ rest)) := by
  cases items with
  | nil =>
      rw [Value.itemBytes]
      exact endsValue_lineStart outer rest
  | cons first others =>
      rw [Value.itemBytes]
      exact endsValue_comma _

theorem takeItems_run {items : List Value} {values : List α}
    (taken : TakenAs reader items values) {collected : List α} (some : collected ≠ [])
    {limit : Nat} (enough : items.length < limit) (level outer : Nat) (rest : List UInt8) :
    (repeatAtMost (takeItem reader) limit collected).run
        (Value.itemBytes level items ++ (lineStart outer ++ 0x5d :: rest)) =
      .ok (collected.reverse ++ values, 0x5d :: rest) := by
  induction taken generalizing limit collected with
  | nil =>
      obtain ⟨limit, rfl⟩ := Nat.exists_eq_add_one_of_ne_zero (Nat.ne_zero_of_lt enough)
      rw [repeatAtMost, Value.itemBytes, List.nil_append, List.append_nil,
        run_bind_ok (takeItem_last collected (lineStart_blank outer) rest)]
      rfl
  | @cons json value symbol items values reads begins other others ih =>
      obtain ⟨limit, rfl⟩ := Nat.exists_eq_add_one_of_ne_zero (Nat.ne_zero_of_lt enough)
      have next := hasNextItem_later begins other level
        (Value.itemBytes level items ++ (lineStart outer ++ 0x5d :: rest))
      rw [← List.isEmpty_eq_false_iff.mpr some] at next
      have step := takeItem_run reads (endsValue_items level outer items (0x5d :: rest)) next
      have bytes : Value.itemBytes level (json :: items) ++ (lineStart outer ++ 0x5d :: rest) =
          0x2c :: (lineStart level ++ (json.bytesAt level ++
            (Value.itemBytes level items ++ (lineStart outer ++ 0x5d :: rest)))) := by
        rw [Value.itemBytes]
        simp only [List.cons_append, List.append_assoc]
      rw [bytes, repeatAtMost, run_bind_ok step]
      refine (ih (List.cons_ne_nil _ _) (Nat.lt_of_succ_lt_succ enough)).trans ?_
      rw [List.reverse_cons, List.append_assoc, List.singleton_append]

theorem length_le_itemBytes (level : Nat) (items : List Value) :
    items.length ≤ (Value.itemBytes level items).length := by
  induction items with
  | nil => exact Nat.zero_le _
  | cons first others ih =>
      rw [Value.itemBytes]
      simp only [List.length_cons, List.length_append]
      omega

theorem list_reads {items : List Value} {values : List α} (taken : TakenAs reader items values) :
    Reads (list reader) (.list items) values := by
  intro level blanks rest all _
  have openList : Symbol.ofByte 0x5b = .openList := by decide
  have close : Symbol.ofByte 0x5d = .closeList := by decide
  have ending : (endList : Reader Unit).run (0x5d :: rest) = .ok ((), rest) := by
    rw [endList, run_bind_ok (peek_run_here (by decide) _), close]
    rfl
  have whole {input : List UInt8}
      (collected : (repeatUntil (takeItem reader) []).run input = .ok (values, 0x5d :: rest)) :
      (list reader).run (blanks ++ 0x5b :: input) = .ok (values, rest) := by
    rw [list, run_bind_ok (peek_run all (by decide) _), openList]
    simp only
    rw [run_bind_ok (advance_run _ _), run_bind_ok collected, run_bind_ok ending]
    rfl
  cases taken with
  | nil =>
      rw [Value.bytesAt]
      refine whole ?_
      change (repeatAtMost (takeItem reader) ((0x5d :: rest).length + 1) []).run
        (0x5d :: rest) = _
      rw [repeatAtMost]
      have last := @takeItem_last [] α reader [] (by simp) rest
      rw [List.nil_append] at last
      rw [run_bind_ok last]
      rfl
  | @cons json value symbol items values reads begins other others =>
      have next := hasNextItem_first begins other (lineStart_blank (level + 1)) (level + 1)
        (Value.itemBytes (level + 1) items ++ (lineStart level ++ 0x5d :: rest))
      have step : (takeItem reader []).run _ = _ := takeItem_run reads
        (endsValue_items (level + 1) level items (0x5d :: rest)) next
      have bytes : (Value.list (json :: items)).bytesAt level ++ rest =
          0x5b :: (lineStart (level + 1) ++ (json.bytesAt (level + 1) ++
            (Value.itemBytes (level + 1) items ++ (lineStart level ++ 0x5d :: rest)))) := by
        rw [Value.bytesAt]
        simp only [List.cons_append, List.append_assoc, List.nil_append]
      rw [bytes]
      refine whole ?_
      change (repeatAtMost (takeItem reader) (List.length _ + 1) []).run _ = _
      rw [repeatAtMost, run_bind_ok step]
      refine takeItems_run others (List.cons_ne_nil _ _) ?_ (level + 1) level rest
      -- Every item takes a byte at least, so there are enough repetitions for all of them.
      have short := length_le_itemBytes (level + 1) items
      simp only [List.length_append, List.length_cons]
      omega

end

end Json

end RangeRecall
