import RangeRecall.Proofs.Decimal.PlainText
import RangeRecall.Query.Workload

/-! Vectors as texts in brackets. The text of a number is not empty and holds neither a bracket nor
a comma. So the body of a literal falls apart at exactly the commas that were written between the
components, whatever their number, and each piece is read on its own. -/

namespace RangeRecall

/-! ## Pieces of a text -/

structure IsPiece (text : String) : Prop where
  nonempty : text ≠ ""
  plain : ∀ symbol ∈ ['[', ']', ','], symbol ∉ text.toList

def bracketed? : List Char → Option (List Char)
  | '[' :: rest => if rest.getLast? = some ']' then some rest.dropLast else none
  | _ => none

def pieces (body : List Char) : List String :=
  if body = [] then [] else (body.splitOn ',').map String.ofList

theorem bracketed?_brackets (body : String) :
    bracketed? ("[" ++ body ++ "]").toList = some body.toList := by
  rw [String.toList_append, String.toList_append]
  change (if (body.toList ++ [']']).getLast? = some ']' then
    some (body.toList ++ [']']).dropLast else none) = _
  rw [List.getLast?_concat, if_pos rfl, List.dropLast_concat]

/-- A separator is found where one was written. One piece has no separator, and none has no body,
which differs from a piece because pieces are not empty. -/
theorem pieces_intercalate {texts : List String} (all : ∀ text ∈ texts, IsPiece text) :
    pieces (",".intercalate texts).toList = texts := by
  cases texts with
  | nil => rfl
  | cons first rest =>
      have some : (",".intercalate (first :: rest)).toList ≠ [] := by
        have nonempty := (all first List.mem_cons_self).nonempty
        cases rest with
        | nil => simpa using nonempty
        | cons => simp [nonempty]
      have plain : ∀ piece ∈ (first :: rest).map String.toList, ',' ∉ piece := by
        intro piece member
        obtain ⟨text, inside, rfl⟩ := List.mem_map.mp member
        exact (all text inside).plain ',' (by decide)
      rw [pieces, if_neg some, String.toList_intercalate]
      change (List.splitOn ',' ([','].intercalate _)).map String.ofList = _
      rw [List.splitOn_intercalate ',' plain (List.cons_ne_nil _ _), List.map_map]
      exact List.map_id'' (fun _ => String.ofList_toList) _

/-! ## Numbers in pieces -/

namespace Binary32

variable {number : Binary32}

theorem isPiece_plainText (isNumber : number.isNaN = false) : IsPiece number.plainText where
  nonempty := plainText_ne_empty isNumber
  plain := by
    intro symbol separator member
    rcases mem_plainText isNumber symbol member with digit | letter
    · fin_cases separator <;> exact absurd digit (by decide)
    · fin_cases separator <;> exact absurd letter (by decide)

def ReadsBack (read : String → Option Binary32) : Prop :=
  ∀ number : Binary32, number.isNaN = false → read number.plainText = some number

end Binary32

def componentsOf? (read : String → Option Binary32) (literal : String) : Option (List Binary32) :=
  (bracketed? literal.toList).bind fun body => (pieces body).mapM read

def AreNumbers (components : List Binary32) : Prop :=
  ∀ component ∈ components, component.isNaN = false

theorem mapM_plainText {read : String → Option Binary32} (reads : Binary32.ReadsBack read)
    {components : List Binary32} (numbers : AreNumbers components) :
    (components.map Binary32.plainText).mapM read = some components := by
  induction components with
  | nil => rfl
  | cons first rest induction =>
      have firstRead := reads first (numbers first List.mem_cons_self)
      have restRead := induction fun component member =>
        numbers component (List.mem_cons_of_mem _ member)
      rw [List.map_cons, List.mapM_cons, firstRead, restRead]
      rfl

theorem componentsOf?_vectorLiteral {read : String → Option Binary32}
    (reads : Binary32.ReadsBack read) {components : List Binary32}
    (numbers : AreNumbers components) :
    componentsOf? read (vectorLiteral components) = some components := by
  have all : ∀ text ∈ components.map Binary32.plainText, IsPiece text := by
    intro text member
    obtain ⟨component, inside, rfl⟩ := List.mem_map.mp member
    exact Binary32.isPiece_plainText (numbers component inside)
  rw [componentsOf?, vectorLiteral, bracketed?_brackets, Option.bind_some, pieces_intercalate all]
  exact mapM_plainText reads numbers

/-! ## Literals -/

/-- Vector literals are unambiguous. The plain text of every number is a piece, and it is read back
with all its bits, as the nearest number to a decimal or by any other such reader. Then a vector of
numbers is read back from its literal component by component, and no two vectors of numbers, of
equal or of different lengths, have one literal. -/
theorem vectorLiteral_unambiguous :
    (∀ number : Binary32, number.isNaN = false → IsPiece number.plainText) ∧
      Binary32.ReadsBack Binary32.ofPlainText? ∧
      (∀ read, Binary32.ReadsBack read → ∀ components, AreNumbers components →
        componentsOf? read (vectorLiteral components) = some components) ∧
      Set.InjOn vectorLiteral { components | AreNumbers components } := by
  have reads : Binary32.ReadsBack Binary32.ofPlainText? :=
    fun _ isNumber => Binary32.ofPlainText?_plainText isNumber
  refine ⟨fun _ => Binary32.isPiece_plainText, reads, fun _ reads _ => ?_, ?_⟩
  · exact componentsOf?_vectorLiteral reads
  · intro left leftNumbers right rightNumbers same
    apply Option.some.inj
    calc some left = componentsOf? Binary32.ofPlainText? (vectorLiteral left) :=
          (componentsOf?_vectorLiteral reads leftNumbers).symm
      _ = componentsOf? Binary32.ofPlainText? (vectorLiteral right) := by rw [same]
      _ = some right := componentsOf?_vectorLiteral reads rightNumbers

theorem vectorLiteral_of_zeros :
    AreNumbers [Binary32.negativeZero, ⟨0⟩, ⟨1⟩, ⟨0xff800000⟩] ∧
      componentsOf? Binary32.ofPlainText?
          (vectorLiteral [Binary32.negativeZero, ⟨0⟩, ⟨1⟩, ⟨0xff800000⟩]) =
        some [Binary32.negativeZero, ⟨0⟩, ⟨1⟩, ⟨0xff800000⟩] ∧
      componentsOf? Binary32.ofPlainText? (vectorLiteral []) = some [] ∧
      vectorLiteral [] ≠ vectorLiteral [Binary32.negativeZero] ∧
      vectorLiteral [⟨0⟩] ≠ vectorLiteral [Binary32.negativeZero] := by
  obtain ⟨-, reads, back, injective⟩ := vectorLiteral_unambiguous
  have four : AreNumbers [Binary32.negativeZero, ⟨0⟩, ⟨1⟩, ⟨0xff800000⟩] := by
    unfold AreNumbers
    decide
  have none : AreNumbers [] := fun _ member => nomatch member
  have one (component : Binary32) (isNumber : component.isNaN = false) : AreNumbers [component] :=
    fun _ member => List.mem_singleton.mp member ▸ isNumber
  have negative := one Binary32.negativeZero (by decide)
  refine ⟨four, back _ reads _ four, back _ reads _ none, ?_, ?_⟩
  · exact injective.ne none negative (by decide)
  · exact injective.ne (one ⟨0⟩ (by decide)) negative (by decide)

-- Numbers are told apart, but two payloads of what is not a number have one text.
example : vectorLiteral [⟨0x7fc00000⟩] = vectorLiteral [⟨0x7fc00001⟩] := by decide +kernel

end RangeRecall
