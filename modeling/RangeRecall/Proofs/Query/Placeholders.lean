import RangeRecall.Query.Workload

/-! Statements and their parameters. The text of a statement and the list of its parameters are made
apart from each other, and they agree: each parameter has one placeholder in the text, and behind
the placeholders stand the values that the query asks for. Limits and bounds become signed numbers
on the way, and no identifier that a column can hold sees the difference. -/

namespace RangeRecall

/-! ## Placeholders -/

/-- The numbers of the placeholders among the symbols: a dollar sign with the digits right after
it is one. -/
def placeholdersAmong : List Char → List Nat
  | [] => []
  | symbol :: rest =>
    let digits := rest.takeWhile Char.isDigit
    if symbol = '$' ∧ digits ≠ [] then Nat.ofDigitChars 10 digits 0 :: placeholdersAmong rest
    else placeholdersAmong rest

def placeholders (text : String) : List Nat :=
  placeholdersAmong text.toList

theorem placeholders_append_of_plain {left : String} (plain : '$' ∉ left.toList)
    (right : String) : placeholders (left ++ right) = placeholders right := by
  rw [placeholders, String.toList_append]
  generalize left.toList = symbols at plain
  induction symbols with
  | nil => rfl
  | cons symbol rest induction =>
      have parts := not_or.mp (mt List.mem_cons.mpr plain)
      rw [List.cons_append, placeholdersAmong, if_neg fun both => parts.1 both.1.symm]
      exact induction parts.2

/-- Digits at the beginning of the second text would belong to the last placeholder of the
first. -/
theorem placeholders_append_of_apart (left : String) {right : String}
    (apart : right.toList.takeWhile Char.isDigit = []) :
    placeholders (left ++ right) = placeholders left ++ placeholders right := by
  rw [placeholders, placeholders, String.toList_append]
  induction left.toList with
  | nil => rfl
  | cons symbol rest induction =>
      have digits : (rest ++ right.toList).takeWhile Char.isDigit =
          rest.takeWhile Char.isDigit := by
        rw [List.takeWhile_append, apart, List.append_nil]
        split
        · rename_i whole
          exact ((List.takeWhile_sublist _).eq_of_length whole).symm
        · rfl
      rw [List.cons_append, placeholdersAmong, placeholdersAmong, digits, induction]
      split <;> rfl

/-! ## Parts of a statement -/

namespace SqlTarget

/-- No name of the target holds a dollar sign. -/
structure IsPlain (target : SqlTarget) : Prop where
  table : '$' ∉ target.table.toList
  idColumn : '$' ∉ target.idColumn.toList
  vectorColumn : '$' ∉ target.vectorColumn.toList

def selection (target : SqlTarget) : String :=
  "SELECT " ++ target.idColumn ++ " FROM " ++ target.table

def nearestFirst (target : SqlTarget) : String :=
  " ORDER BY " ++ target.vectorColumn ++ " <-> $1 LIMIT $2"

variable {target : SqlTarget}

theorem IsPlain.placeholders_selection (plain : target.IsPlain) (rest : String) :
    placeholders (target.selection ++ rest) = placeholders rest := by
  simp only [selection, String.append_assoc]
  rw [placeholders_append_of_plain (by decide), placeholders_append_of_plain plain.idColumn,
    placeholders_append_of_plain (by decide), placeholders_append_of_plain plain.table]

theorem IsPlain.placeholders_nearestFirst (plain : target.IsPlain) :
    placeholders target.nearestFirst = [1, 2] := by
  simp only [nearestFirst, String.append_assoc]
  rw [placeholders_append_of_plain (by decide), placeholders_append_of_plain plain.vectorColumn]
  rfl

theorem IsPlain.placeholders_rangeCondition (plain : target.IsPlain) (strategy : ScanStrategy) :
    placeholders (Query.rangeCondition strategy target) = [1, 2] := by
  cases strategy with
  | indexScan =>
      simp only [Query.rangeCondition, String.append_assoc]
      rw [placeholders_append_of_plain (by decide),
        placeholders_append_of_plain plain.vectorColumn]
      rfl
  | sequentialScan =>
      rw [Query.rangeCondition, placeholders_append_of_plain plain.vectorColumn]
      rfl

end SqlTarget

def SqlStatement.parameter? (statement : SqlStatement) : (number : Nat) → Option SqlParameter
  | 0 => none
  | place + 1 => statement.parameters[place]?

/-! ## Conditions on identifiers -/

inductive IdCondition where
  | any
  | below (number : Nat)
deriving DecidableEq

namespace IdCondition

def text (target : SqlTarget) : IdCondition → String
  | any => ""
  | below number => " WHERE " ++ target.idColumn ++ " < $" ++ Decimal.naturalText number

def Admits (statement : SqlStatement) (id : UInt64) : IdCondition → Prop
  | any => True
  | below number =>
    ∃ bound, statement.parameter? number = some (.integer bound) ∧ id.toNat < bound

theorem text_injective (target : SqlTarget) {left right : IdCondition}
    (same : left.text target = right.text target) : left = right := by
  have symbols := congrArg String.toList same
  cases left with
  | any =>
      cases right with
      | any => rfl
      | below number =>
          simp [text] at symbols
  | below number =>
      cases right with
      | any => simp [text] at symbols
      | below other =>
          simp only [text, Decimal.naturalText, String.toList_append, String.toList_ofList]
            at symbols
          have digits := List.append_cancel_left symbols
          have numbers := congrArg (fun digits => Nat.ofDigitChars 10 digits 0) digits
          simpa using numbers

end IdCondition

/-! ## Statements of queries -/

theorem IdFilter.boundParameter?_le {filter : IdFilter} {bound : Nat}
    (bounded : filter.boundParameter? = some bound) : bound ≤ greatestInteger := by
  obtain ⟨limit⟩ := filter
  rw [boundParameter?, Option.ite_none_right_eq_some] at bounded
  exact Option.some.inj bounded.2 ▸ bounded.1

namespace Query

def idCondition (filter : Option IdFilter) : IdCondition :=
  match filter.bind IdFilter.boundParameter? with
  | none => .any
  | some _ => .below 3

section

variable {query : Query} {target : SqlTarget} {threshold : Binary32} {k : Nat}
  {filter : Option IdFilter}

theorem toSql_range (kind : query.kind = .range threshold) :
    query.toSql target = {
      text := target.selection ++ " WHERE " ++ rangeCondition query.strategy target
      parameters := [.vector query.vector, .number threshold] } := by
  rw [toSql, kind]
  rfl

theorem toSql_topK (kind : query.kind = .topK k filter) :
    query.toSql target = {
      text := target.selection ++ (idCondition filter).text target ++ target.nearestFirst
      parameters := .vector query.vector :: .integer (min k greatestInteger) ::
        ((filter.bind IdFilter.boundParameter?).map .integer).toList } := by
  simp only [toSql, kind, idCondition]
  cases filter.bind IdFilter.boundParameter? with
  | none =>
      rw [IdCondition.text, String.append_empty]
      rfl
  | some bound =>
      have written : IdCondition.text target (.below 3) =
          " WHERE " ++ target.idColumn ++ " < $3" := by
        have closed : " < $" ++ Decimal.naturalText 3 = " < $3" := rfl
        rw [IdCondition.text, String.append_assoc, closed]
      simp only [written, SqlTarget.selection, SqlTarget.nearestFirst, String.append_assoc]
      rfl

theorem placeholders_toSql (plain : target.IsPlain) :
    (placeholders (query.toSql target).text).Perm
      (List.range' 1 (query.toSql target).parameters.length) := by
  cases kind : query.kind with
  | range threshold =>
      rw [toSql_range kind, String.append_assoc, plain.placeholders_selection,
        placeholders_append_of_plain (by decide), plain.placeholders_rangeCondition]
      exact .refl _
  | topK k filter =>
      rw [toSql_topK kind, String.append_assoc, plain.placeholders_selection, idCondition]
      cases filter.bind IdFilter.boundParameter? with
      | none =>
          rw [IdCondition.text, String.empty_append, plain.placeholders_nearestFirst]
          exact .refl _
      | some bound =>
          -- The bound is the last parameter, but its placeholder comes first.
          have condition : placeholders (IdCondition.text target (.below 3)) = [3] := by
            simp only [IdCondition.text, String.append_assoc]
            rw [placeholders_append_of_plain (by decide),
              placeholders_append_of_plain plain.idColumn]
            rfl
          have apart : target.nearestFirst.toList.takeWhile Char.isDigit = [] := by
            simp [SqlTarget.nearestFirst]
          rw [placeholders_append_of_apart _ apart, condition, plain.placeholders_nearestFirst]
          exact (show [3, 1, 2].Perm [1, 2, 3] by decide)

theorem integer_le_greatestInteger {value : Nat}
    (member : .integer value ∈ (query.toSql target).parameters) : value ≤ greatestInteger := by
  cases kind : query.kind with
  | range threshold =>
      rw [toSql_range kind] at member
      simp at member
  | topK k filter =>
      rw [toSql_topK kind] at member
      simp only [List.mem_cons, SqlParameter.integer.injEq, reduceCtorEq, false_or,
        Option.mem_toList, Option.map_eq_some_iff, exists_eq_right, Option.bind_eq_some_iff]
        at member
      rcases member with rfl | ⟨restriction, -, bounded⟩
      · exact Nat.min_le_right _ _
      · exact IdFilter.boundParameter?_le bounded

theorem idCondition_admits_iff (kind : query.kind = .topK k filter) {id : UInt64}
    (fits : id.toNat ≤ greatestInteger) :
    (idCondition filter).Admits (query.toSql target) id ↔
      ∀ restriction ∈ filter, restriction.admits id = true := by
  rw [toSql_topK kind]
  cases filter with
  | none => simp [idCondition, IdCondition.Admits]
  | some restriction =>
      obtain ⟨bound⟩ := restriction
      by_cases small : bound.toNat ≤ greatestInteger
      · have bounded : (some (IdFilter.lessThan bound)).bind IdFilter.boundParameter? =
            some bound.toNat := if_pos small
        rw [idCondition, bounded]
        simp [IdCondition.Admits, SqlStatement.parameter?, IdFilter.admits,
          UInt64.lt_iff_toNat_lt]
      · have unbounded : (some (IdFilter.lessThan bound)).bind IdFilter.boundParameter? = none :=
          if_neg small
        have below : id.toNat < bound.toNat := by omega
        rw [idCondition, unbounded]
        simp [IdCondition.Admits, IdFilter.admits, UInt64.lt_iff_toNat_lt, below]

end

/-- The statement of a query means what the query does. Behind its placeholders stand exactly its
parameters, the first of which is the vector and the second the threshold or the limit, and its
condition on identifiers is the filter of the query for every identifier that a column can hold. -/
theorem toSql_keeps_meaning (query : Query) {target : SqlTarget} (plain : target.IsPlain) :
    let statement := query.toSql target
    (placeholders statement.text).Perm (List.range' 1 statement.parameters.length) ∧
    (∀ value, .integer value ∈ statement.parameters → value ≤ greatestInteger) ∧
    statement.parameter? 1 = some (.vector query.vector) ∧
    (∀ threshold, query.kind = .range threshold →
      statement.parameter? 2 = some (.number threshold)) ∧
    ∀ k filter, query.kind = .topK k filter →
      statement.parameter? 2 = some (.integer (min k greatestInteger)) ∧
      ∃ condition : IdCondition,
        (∀ other : IdCondition,
          statement.text = target.selection ++ other.text target ++ target.nearestFirst ↔
            other = condition) ∧
        ∀ id : UInt64, id.toNat ≤ greatestInteger →
          (condition.Admits statement id ↔
            ∀ restriction ∈ filter, restriction.admits id = true) := by
  intro statement
  refine ⟨placeholders_toSql plain, fun _ => integer_le_greatestInteger, ?_, ?_, ?_⟩
  · cases kind : query.kind with
    | range threshold => rw [show statement = _ from toSql_range kind]; rfl
    | topK k filter => rw [show statement = _ from toSql_topK kind]; rfl
  · intro threshold kind
    rw [show statement = _ from toSql_range kind]
    rfl
  · intro k filter kind
    have written : statement = _ := toSql_topK kind
    refine ⟨by rw [written]; rfl, idCondition filter, fun other => ?_,
      fun _ fits => idCondition_admits_iff kind fits⟩
    rw [written]
    constructor
    · intro same
      have symbols := congrArg String.toList same
      simp only [String.toList_append, List.append_assoc] at symbols
      have conditions := List.append_cancel_right (List.append_cancel_left symbols)
      exact (IdCondition.text_injective target (String.toList_inj.mp conditions)).symm
    · rintro rfl
      rfl

def nearestBelow (bound : UInt64) : Query where
  index := 0
  strategy := .indexScan
  kind := .topK 18446744073709551615 (some (.lessThan bound))
  vector := [⟨0x3f800000⟩]

/-- The greatest signed number is kept as a bound, and keeps out the identifier of the same
number. The bound one above it is left out, and that identifier passes. -/
theorem greatest_bound_kept :
    let kept := (nearestBelow 9223372036854775807).toSql .default
    let dropped := (nearestBelow 9223372036854775808).toSql .default
    (placeholders kept.text).Perm [1, 2, 3] ∧
    kept.parameter? 2 = some (.integer 9223372036854775807) ∧
    (∃ condition : IdCondition,
      kept.text = SqlTarget.default.selection ++ condition.text .default ++
        SqlTarget.default.nearestFirst ∧
      condition.Admits kept 9223372036854775806 ∧ ¬condition.Admits kept 9223372036854775807) ∧
    (placeholders dropped.text).Perm [1, 2] ∧
    ∃ condition : IdCondition,
      dropped.text = SqlTarget.default.selection ++ condition.text .default ++
        SqlTarget.default.nearestFirst ∧
      condition.Admits dropped 9223372036854775807 := by
  intro kept dropped
  have plain : SqlTarget.default.IsPlain := ⟨by decide, by decide, by decide⟩
  obtain ⟨keptNumbers, -, -, -, keptTopK⟩ :=
    toSql_keeps_meaning (nearestBelow 9223372036854775807) plain
  obtain ⟨droppedNumbers, -, -, -, droppedTopK⟩ :=
    toSql_keeps_meaning (nearestBelow 9223372036854775808) plain
  obtain ⟨limit, condition, written, admits⟩ := keptTopK _ _ rfl
  obtain ⟨-, other, otherWritten, otherAdmits⟩ := droppedTopK _ _ rfl
  refine ⟨keptNumbers, limit, ⟨condition, (written condition).mpr rfl, ?_, ?_⟩, droppedNumbers,
    other, (otherWritten other).mpr rfl, ?_⟩
  · exact (admits _ (by decide)).mpr (by decide)
  · exact fun admitted => absurd ((admits _ (by decide)).mp admitted) (by decide)
  · exact (otherAdmits _ (by decide)).mpr (by decide)

end Query

end RangeRecall
