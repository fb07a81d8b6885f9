import RangeRecall.Proofs.Store.History

/-! Connections made from a store that has a past. A connection addresses its own target and is
otherwise a copy: the counter, the settings and the end of the store come with it. If the store has
not been closed, the connection answers like a store that was just made, and if it has, it refuses
everything. -/

namespace RangeRecall

namespace MemoryStore

def replies (store : MemoryStore) : List Query → List (Except (Failure StoreError) (List UInt64))
  | [] => []
  | query :: rest => (store.submit query).1 :: (store.submit query).2.replies rest

theorem submit_state (store : MemoryStore) (query : Query) :
    ∃ submitted, (store.submit query).2 = { store with submitted := submitted } := by
  rcases store.submit_cases query with ⟨_, refusal⟩ | ⟨_, _, refusal⟩ | ⟨_, _, reply⟩
  · exact ⟨store.submitted, congrArg Prod.snd refusal⟩
  · exact ⟨store.submitted, congrArg Prod.snd refusal⟩
  · exact ⟨store.submitted + 1, congrArg Prod.snd reply⟩

namespace AnswersLike

variable {store template : MemoryStore}

theorem reply_eq (alike : AnswersLike store template) (isOpen : template.closed = false)
    (query : Query) : (store.submit query).1 = (template.submit query).1 := by
  simp only [MemoryStore.submit, alike.isOpen, isOpen, alike.base, alike.search_eq,
    Bool.false_eq_true, if_false]
  split <;> rfl

theorem after_submit (alike : AnswersLike store template) (query : Query) :
    AnswersLike (store.submit query).2 (template.submit query).2 := by
  obtain ⟨_, state⟩ := store.submit_state query
  obtain ⟨_, templateState⟩ := template.submit_state query
  rw [state, templateState]
  exact {
    isOpen := alike.isOpen, base := alike.base, metric := alike.metric, idBase := alike.idBase }

theorem replies_eq (alike : AnswersLike store template) (isOpen : template.closed = false)
    (queries : List Query) : store.replies queries = template.replies queries := by
  induction queries generalizing store template with
  | nil => rfl
  | cons query rest induction =>
      have stillOpen : (template.submit query).2.closed = false := by
        obtain ⟨_, state⟩ := template.submit_state query
        rw [state]
        exact isOpen
      rw [replies, replies, alike.reply_eq isOpen, induction (alike.after_submit query) stillOpen]

end AnswersLike

theorem replies_of_closed {store : MemoryStore} (closed : store.closed = true)
    (queries : List Query) :
    store.replies queries = queries.map fun _ =>
      .error (.error { kind := .connection, detail := "store is closed" }) := by
  induction queries with
  | nil => rfl
  | cons query rest induction =>
      have refusal : store.submit query =
          (.error (.error { kind := .connection, detail := "store is closed" }), store) :=
        if_pos closed
      rw [replies, refusal, induction, List.map_cons]

end MemoryStore

namespace TracedStore

variable {fresh : MemoryStore} {traced : TracedStore}

theorem GrownFrom.replies_connect (grown : GrownFrom fresh traced) (isOpen : fresh.closed = false)
    (unclosed : .closed ∉ traced.past) (target : SqlTarget) (queries : List Query) :
    (traced.store.connect target).replies queries = fresh.replies queries := by
  have alike := grown.answersLike unclosed
  have connected : (traced.store.connect target).AnswersLike fresh := {
    isOpen := alike.isOpen, base := alike.base, metric := alike.metric, idBase := alike.idBase }
  exact connected.replies_eq isOpen queries

/-- A connection made from a store addresses the asked target, whatever was done to the store
before. Its counter, its settings and whether it is closed are those of the store's past. If the
store has never been closed, the connection is open and replies to all that is submitted to it as a
new store over the same vectors would, and otherwise it refuses every query. -/
theorem connection_inherits_past {base : VectorBatch} {metric : DistanceMetric} {idBase : UInt64}
    {steps : List FleetStep} {stores : List TracedStore}
    (ran : run [{ store := { base := base, metric := metric, idBase := idBase }, past := [] }]
      steps = .ok stores) :
    ∀ traced ∈ stores, ∀ target : SqlTarget,
      let connection := traced.store.connect target
      connection.target = target ∧
        connection.submitted = traced.past.countP StoreEvent.isAnswered ∧
        (∀ name, connection.setting? name = traced.lastApplied? name) ∧
        (connection.closed = true ↔ .closed ∈ traced.past) ∧
        (.closed ∉ traced.past → ∀ queries, connection.replies queries =
          MemoryStore.replies { base := base, metric := metric, idBase := idBase } queries) ∧
        (.closed ∈ traced.past → ∀ queries, connection.replies queries = queries.map fun _ =>
          .error (.error { kind := .connection, detail := "store is closed" })) := by
  intro traced member target connection
  have fresh : GrownFrom { base := base, metric := metric, idBase := idBase }
      { store := { base := base, metric := metric, idBase := idBase }, past := [] } :=
    .start rfl rfl rfl
  have grown := GrownFrom.run (List.forall_mem_singleton.mpr fresh) ran traced member
  refine ⟨rfl, grown.submitted, grown.setting?_eq, grown.closed, ?_, ?_⟩
  · intro unclosed queries
    exact grown.replies_connect rfl unclosed target queries
  · intro closed queries
    have ended : connection.closed = true := grown.closed.mpr closed
    exact MemoryStore.replies_of_closed ended queries

/-- Connections made from a store that has answered a query count it, and one made from its closed
copy refuses the query that the other one answers. -/
theorem used_and_closed_connections :
    ∃ used closed : TracedStore,
      run [{ store := { base := oneOnLine, metric := .euclidean, idBase := 1 }, past := [] }]
        [.act 0 (.submit (nearZero 0 .indexScan)), .clone 0, .act 1 .close] =
          .ok [used, closed] ∧
      (used.store.connect SqlTarget.default).submitted = 1 ∧
      (used.store.connect SqlTarget.default).closed = false ∧
      (used.store.connect SqlTarget.default).replies [nearZero 1 .indexScan] = [.ok [1]] ∧
      (closed.store.connect SqlTarget.default).submitted = 1 ∧
      (closed.store.connect SqlTarget.default).closed = true ∧
      (closed.store.connect SqlTarget.default).replies [nearZero 1 .indexScan] =
        [.error (.error { kind := .connection, detail := "store is closed" })] := by
  obtain ⟨used, closed, ran, past, closedPast⟩ : ∃ used closed : TracedStore,
      run [{ store := { base := oneOnLine, metric := .euclidean, idBase := 1 }, past := [] }]
        [.act 0 (.submit (nearZero 0 .indexScan)), .clone 0, .act 1 .close] =
          .ok [used, closed] ∧
      used.past = [.submitted (nearZero 0 .indexScan) (.ok [1])] ∧
      closed.past = used.past ++ [.closed] :=
    ⟨_, _, rfl, rfl, rfl⟩
  obtain ⟨-, counted, -, ended, answers, -⟩ :=
    connection_inherits_past ran used (by simp) SqlTarget.default
  obtain ⟨-, closedCounted, -, closedEnded, -, refuses⟩ :=
    connection_inherits_past ran closed (by simp) SqlTarget.default
  have unclosed : .closed ∉ used.past := by simp [past]
  have isClosed : .closed ∈ closed.past := by simp [closedPast]
  refine ⟨used, closed, ran, ?_, ?_, ?_, ?_, closedEnded.mpr isClosed, refuses isClosed _⟩
  · rw [counted, past]
    rfl
  · exact Bool.eq_false_iff.mpr fun isClosed => unclosed (ended.mp isClosed)
  · rw [answers unclosed]
    rfl
  · rw [closedCounted, closedPast, past]
    rfl

end TracedStore

end RangeRecall
