import RangeRecall.Failure

/-! Steps that may fail, one after another and in passages over lists. -/

namespace RangeRecall

namespace Failure

@[simp] theorem mapError_ok (relabel : ε → κ) (value : α) :
    (Except.ok value).mapError relabel = .ok value := rfl

@[simp] theorem mapError_error (relabel : ε → κ) (cause : ε) :
    (Except.error cause : Except ε α).mapError relabel = .error (relabel cause) := rfl

theorem mapError_eq_ok_iff {result : Except ε α} {relabel : ε → κ} {value : α} :
    result.mapError relabel = .ok value ↔ result = .ok value := by
  cases result with
  | error cause => exact ⟨nofun, nofun⟩
  | ok found => rw [mapError_ok, Except.ok.injEq, Except.ok.injEq]

theorem bind_eq_ok_iff {first : Except ε α} {second : α → Except ε β} {result : β} :
    first >>= second = .ok result ↔
      ∃ value, first = .ok value ∧ second value = .ok result := by
  cases first with
  | error cause =>
      constructor
      · intro succeeds
        cases succeeds
      · rintro ⟨_, succeeds, _⟩
        cases succeeds
  | ok value =>
      constructor
      · intro succeeds
        exact ⟨value, rfl, succeeds⟩
      · rintro ⟨_, same, succeeds⟩
        cases same
        exact succeeds

theorem bind_eq_error_iff {first : Except ε α} {second : α → Except ε β} {cause : ε} :
    first >>= second = .error cause ↔
      first = .error cause ∨ ∃ value, first = .ok value ∧ second value = .error cause := by
  cases first with
  | error other =>
      constructor
      · intro failed
        cases failed
        exact .inl rfl
      · rintro (failed | ⟨_, succeeds, _⟩)
        · cases failed
          rfl
        · cases succeeds
  | ok value =>
      constructor
      · intro failed
        exact .inr ⟨value, rfl, failed⟩
      · rintro (failed | ⟨_, same, failed⟩)
        · cases failed
        · cases same
          exact failed

theorem check_bind_eq_ok_iff {check : Except ε Unit} {step : Except ε α} {result : α} :
    (check >>= fun _ => step) = .ok result ↔ check = .ok () ∧ step = .ok result := by
  rw [bind_eq_ok_iff]
  exact ⟨fun ⟨_, both⟩ => both, fun both => ⟨(), both⟩⟩

theorem mapM_eq_ok {step : α → Except ε β} {result : α → β} {items : List α}
    (succeeds : ∀ item ∈ items, step item = .ok (result item)) :
    items.mapM step = .ok (items.map result) := by
  induction items with
  | nil => rfl
  | cons item rest induction =>
      have later := induction fun other member => succeeds other (List.mem_cons_of_mem _ member)
      rw [List.mapM_cons, succeeds item List.mem_cons_self, later]
      rfl

theorem mapM_eq_error {step : α → Except ε β} {cause : ε} {items : List α}
    (fails : ∃ item ∈ items, step item = .error cause)
    (alike : ∀ item ∈ items, ∀ other, step item = .error other → other = cause) :
    items.mapM step = .error cause := by
  induction items with
  | nil =>
      obtain ⟨_, member, _⟩ := fails
      exact absurd member List.not_mem_nil
  | cons item rest induction =>
      rw [List.mapM_cons]
      cases taken : step item with
      | error other =>
          rw [alike item List.mem_cons_self other taken]
          rfl
      | ok first =>
          have later : ∃ other ∈ rest, step other = .error cause := by
            obtain ⟨failing, member, failed⟩ := fails
            rcases List.mem_cons.mp member with rfl | inside
            · cases taken.symm.trans failed
            · exact ⟨failing, inside, failed⟩
          rw [induction later fun other member => alike other (List.mem_cons_of_mem _ member)]
          rfl

theorem of_mapM_eq_ok {step : α → Except ε β} {items : List α} {results : List β}
    (succeeds : items.mapM step = .ok results) :
    results.length = items.length ∧ ∀ result ∈ results, ∃ item ∈ items, step item = .ok result := by
  induction items generalizing results with
  | nil =>
      cases succeeds
      exact ⟨rfl, fun _ member => absurd member List.not_mem_nil⟩
  | cons item rest induction =>
      rw [List.mapM_cons] at succeeds
      obtain ⟨first, taken, later⟩ := bind_eq_ok_iff.mp succeeds
      obtain ⟨others, takenLater, same⟩ := bind_eq_ok_iff.mp later
      cases same
      obtain ⟨length, each⟩ := induction takenLater
      refine ⟨congrArg (· + 1) length,
        List.forall_mem_cons.mpr ⟨⟨item, List.mem_cons_self, taken⟩, ?_⟩⟩
      intro result member
      obtain ⟨other, inside, same⟩ := each result member
      exact ⟨other, List.mem_cons_of_mem _ inside, same⟩

end Failure

end RangeRecall
