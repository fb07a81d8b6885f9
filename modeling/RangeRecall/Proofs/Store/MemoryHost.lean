import RangeRecall.Proofs.Run.OneStrategy
import RangeRecall.Store.Memory
import RangeRecall.Store.Session

/-! Sessions with stores in memory. Every step of such a session succeeds, and the connection
answers range and top-k queries as its template would, however many queries it has seen. -/

namespace RangeRecall

theorem Session.dropOnFailure_yields {before after : σ → Prop} {activity : Activity σ α}
    {value : α} (backend : Backend σ) (session : Session)
    (yields : activity.Yields before value after) :
    (dropOnFailure backend session activity).Yields before value after := by
  intro environment holds
  rcases yields environment holds with ⟨next, run, reached, kept⟩
  exact ⟨next, by simp only [dropOnFailure, run], reached, kept⟩

namespace MemoryStore

structure AnswersLike (store template : MemoryStore) : Prop where
  isOpen : store.closed = false
  base : store.base = template.base
  metric : store.metric = template.metric
  idBase : store.idBase = template.idBase

namespace AnswersLike

variable {store template : MemoryStore}

theorem connect (isOpen : template.closed = false) (target : SqlTarget) :
    AnswersLike (template.connect target) template :=
  { isOpen := isOpen, base := rfl, metric := rfl, idBase := rfl }

theorem applySetting (alike : AnswersLike store template) (name value : String) :
    AnswersLike (store.applySetting name value) template :=
  { isOpen := alike.isOpen, base := alike.base, metric := alike.metric, idBase := alike.idBase }

theorem idsWithin_eq (alike : AnswersLike store template) (query : List Binary32)
    (threshold : Binary32) (vectors : List (List Binary32)) (row : Nat) :
    store.idsWithin query threshold row vectors =
      template.idsWithin query threshold row vectors := by
  induction vectors generalizing row with
  | nil => rfl
  | cons vector rest induction =>
      simp only [idsWithin, idOf, induction, alike.metric, alike.idBase]

theorem candidates_eq (alike : AnswersLike store template) (query : List Binary32)
    (admits : UInt64 → Bool) (vectors : List (List Binary32)) (row : Nat) :
    store.candidates query admits row vectors =
      template.candidates query admits row vectors := by
  induction vectors generalizing row with
  | nil => rfl
  | cons vector rest induction =>
      simp only [candidates, idOf, induction, alike.metric, alike.idBase]

theorem search_eq (alike : AnswersLike store template) (query : Query) :
    store.search query = template.search query := by
  cases kind : query.kind with
  | range threshold =>
      simp only [search, kind, rangeSearch, alike.base, alike.idsWithin_eq]
  | topK k filter =>
      simp only [search, kind, topKSearch, alike.base, alike.candidates_eq]

theorem submit (alike : AnswersLike store template) {query : Query} {ids : List UInt64}
    (fits : template.base.count = 0 ∨ query.vector.length = template.base.dimension)
    (found : template.search query = .ok ids) :
    (store.submit query).1 = .ok ids ∧ AnswersLike (store.submit query).2 template := by
  have accepted :
      ¬(query.vector.length ≠ store.base.dimension ∧ (!store.base.isEmpty) = true) := by
    simp only [VectorBatch.isEmpty, alike.base, Bool.not_eq_true', beq_eq_false_iff_ne]
    omega
  rw [MemoryStore.submit, if_neg (by simp [alike.isOpen]), if_neg accepted, alike.search_eq,
    found]
  exact ⟨rfl, alike.isOpen, alike.base, alike.metric, alike.idBase⟩

end AnswersLike

end MemoryStore

namespace MemoryHost

/-- The present connection answers like a store, and no stop has been asked for. -/
structure Serves (host : MemoryHost) (store : MemoryStore) : Prop where
  noStop : host.stopRequested = false
  alike : host.connection.AnswersLike store

variable {store : MemoryStore}

theorem connect_yields (isOpen : store.closed = false) (target : SqlTarget) :
    Activity.Yields (· = MemoryHost.ofStore store) (Session.connect backend target) ()
      (Serves · store) := by
  refine .bind (.report _) (.call _ fun host same => ⟨rfl, ?_⟩)
  cases same
  exact { noStop := rfl, alike := .connect isOpen target }

theorem applySetting_yields (setting : String × String) :
    Activity.Yields (Serves · store) (Session.applySetting backend setting) ()
      (Serves · store) :=
  .bind (.report _) (.call _ fun _ serves => ⟨rfl,
    { noStop := serves.noStop, alike := serves.alike.applySetting _ _ }⟩)

theorem start_yields (isOpen : store.closed = false) (target : SqlTarget)
    (settings : List (String × String)) :
    Activity.Yields (· = MemoryHost.ofStore store) (Session.start backend target settings) {}
      (Serves · store) :=
  .bind (connect_yields isOpen target) (.bind (Session.dropOnFailure_yields backend {}
    (.bind (.forAll fun setting _ => applySetting_yields setting) (.pure ()))) (.pure _))

theorem finish_yields (session : Session) :
    Activity.Yields (Serves · store) (Session.finish backend session) () fun _ => True := by
  rw [Session.finish_eq_close]
  exact .call _ fun _ _ => ⟨rfl, trivial⟩

theorem answers {executor : Executor MemoryHost} (backend : executor.backend = backend)
    {answer : Query → List UInt64} {query : Query}
    (fits : store.base.count = 0 ∨ query.vector.length = store.base.dimension)
    (found : store.search query = .ok (answer query)) :
    executor.Answers (Serves · store) answer query := by
  intro host serves
  have submitted := serves.alike.submit fits found
  rw [backend]
  refine ⟨?_, submitted.1, { noStop := serves.noStop, alike := submitted.2 }⟩
  have unasked : MemoryHost.backend.stopRequested host = false := serves.noStop
  rw [unasked, Bool.and_false]

end MemoryHost

end RangeRecall
