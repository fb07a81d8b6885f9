import RangeRecall.Proofs.Failure
import RangeRecall.Proofs.Run.OneStrategy
import RangeRecall.Proofs.Store.CallPlan
import RangeRecall.Proofs.Store.WorstFirst
import RangeRecall.Store.Memory

/-! The size of what a store answers. If no answer of a store has more identifiers than a word can
count, then no record of a run has, whatever else the store does. -/

namespace RangeRecall

/-- The backend keeps to steady states, in which every answer has fewer identifiers than there are
words. -/
structure Backend.AnswersFit (backend : Backend σ) (steady : σ → Prop) : Prop where
  keeps : ∀ state call, steady state → steady (backend.perform state call).2
  answers : ∀ state query ids, steady state →
    (backend.submit query state).1 = .ok ids → ids.length < wordLimit

/-! ## Runs -/

def ExecutionRun.AnswersFit (run : ExecutionRun) : Prop :=
  ∀ record ∈ run.records, record.resultIds.length < wordLimit

namespace Executor

variable {executor : Executor σ} {steady : σ → Prop}

theorem checkStop_ensures (executor : Executor σ) (completed : Nat) :
    Activity.Ensures steady (executor.checkStop completed) fun _ => True := by
  intro environment value last begun ran
  unfold checkStop at ran
  split at ran
  · cases ran
  · cases ran
    exact ⟨trivial, begun⟩

theorem execute_ensures (fits : executor.backend.AnswersFit steady) (query : Query) :
    Activity.Ensures steady (executor.execute query) fun record =>
      record.resultIds.length < wordLimit :=
  .bind (.call _ (fun state begun => fits.keeps state (.submit query) begun)
    fun state ids begun answered => fits.answers state query ids begun answered)
    fun _ fit => .pure fit

theorem reportProgress_ensures (executor : Executor σ) (strategy : ScanStrategy)
    (position total : Nat) :
    Activity.Ensures steady (executor.reportProgress strategy position total) fun _ => True := by
  unfold reportProgress
  split
  · exact .report _
  · exact .pure trivial

theorem executeFrom_ensures (fits : executor.backend.AnswersFit steady) (queries : List Query)
    (strategy : ScanStrategy) (total position : Nat) :
    Activity.Ensures steady (executor.executeFrom strategy total position queries)
      fun records => ∀ record ∈ records, record.resultIds.length < wordLimit := by
  induction queries generalizing position with
  | nil => exact .pure fun _ member => absurd member List.not_mem_nil
  | cons query rest induction =>
      refine .bind (executor.checkStop_ensures position) fun _ _ => ?_
      refine .bind (execute_ensures fits query) fun record fit => ?_
      refine .bind (executor.reportProgress_ensures strategy position total) fun _ _ => ?_
      refine .bind (induction (position + 1)) fun records others => ?_
      exact .pure (List.forall_mem_cons.mpr ⟨fit, others⟩)

theorem run_ensures (fits : executor.backend.AnswersFit steady) {queries : List Query}
    (same : ∀ query ∈ queries, query.strategy = strategyOf queries) :
    Activity.Ensures steady (executor.run queries) ExecutionRun.AnswersFit := by
  rw [run_of_one_strategy same]
  refine .bind (.report _) fun _ _ => ?_
  refine .bind (executeFrom_ensures fits queries _ _ 0) fun records fit => ?_
  exact .bind (.report _) fun _ _ => .pure fit

end Executor

/-! ## Sessions -/

namespace Session

variable {backend : Backend σ} {steady : σ → Prop} {session : Session}

theorem dropOnFailure_ensures {activity : Activity σ α} {holds : α → Prop}
    (ensures : activity.Ensures steady holds) :
    Activity.Ensures steady (dropOnFailure backend session activity) holds := by
  intro environment value last begun ran
  rcases reply : activity environment with ⟨failure | result, next⟩
  · simp only [dropOnFailure, reply] at ran
    cases ran
  · simp only [dropOnFailure, reply] at ran
    cases ran
    exact ensures environment value last begun reply

theorem connect_ensures (fits : backend.AnswersFit steady) (target : SqlTarget) :
    Activity.Ensures steady (connect backend target) fun _ => True :=
  .bind (.report _) fun _ _ =>
    .call _ (fun state => fits.keeps state (.connect target)) fun _ _ _ _ => trivial

theorem applySetting_ensures (fits : backend.AnswersFit steady) (setting : String × String) :
    Activity.Ensures steady (applySetting backend setting) fun _ => True :=
  .bind (.report _) fun _ _ =>
    .call _ (fun state => fits.keeps state (.applySetting setting.1 setting.2))
      fun _ _ _ _ => trivial

theorem start_ensures (fits : backend.AnswersFit steady) (target : SqlTarget)
    (settings : List (String × String)) :
    Activity.Ensures steady (start backend target settings) fun _ => True := by
  refine .bind (connect_ensures fits target) fun _ _ => ?_
  have applied : Activity.Ensures steady (do
      let _ ← Activity.forAll (applySetting backend) settings
      return ()) fun _ => True :=
    .bind (.forAll (applySetting_ensures fits) settings) fun _ _ => .pure trivial
  exact .bind (dropOnFailure_ensures applied) fun _ _ => .pure trivial

theorem finish_ensures (fits : backend.AnswersFit steady) :
    Activity.Ensures steady (finish backend session) fun _ => True := by
  rw [finish_eq_close]
  exact .call _ (fun state => fits.keeps state .close) fun _ _ _ _ => trivial

end Session

/-! ## Stores in memory -/

namespace MemoryStore

variable {store : MemoryStore}

theorem length_of_idsWithin {query : List Binary32} {threshold : Binary32} {row : Nat}
    {vectors : List (List Binary32)} {ids : List UInt64}
    (found : store.idsWithin query threshold row vectors = .ok ids) :
    ids.length ≤ vectors.length := by
  induction vectors generalizing row ids with
  | nil =>
      cases found
      exact Nat.le_refl 0
  | cons vector rest induction =>
      rcases Failure.bind_eq_ok_iff.mp found with ⟨distance, _, later⟩
      split at later
      · rcases Failure.bind_eq_ok_iff.mp later with ⟨id, _, others⟩
        rcases Failure.bind_eq_ok_iff.mp others with ⟨_, foundLater, joined⟩
        cases joined
        exact Nat.succ_le_succ (induction foundLater)
      · exact Nat.le_succ_of_le (induction later)

theorem length_of_candidates {query : List Binary32} {admits : UInt64 → Bool} {row : Nat}
    {vectors : List (List Binary32)} {candidates : List Candidate}
    (found : store.candidates query admits row vectors = .ok candidates) :
    candidates.length ≤ vectors.length := by
  induction vectors generalizing row candidates with
  | nil =>
      cases found
      exact Nat.le_refl 0
  | cons vector rest induction =>
      rcases Failure.bind_eq_ok_iff.mp found with ⟨id, _, later⟩
      split at later
      · rcases Failure.bind_eq_ok_iff.mp later with ⟨distance, _, others⟩
        rcases Failure.bind_eq_ok_iff.mp others with ⟨_, foundLater, joined⟩
        cases joined
        exact Nat.succ_le_succ (induction foundLater)
      · exact Nat.le_succ_of_le (induction later)

theorem length_of_topKSearch {query : List Binary32} {k : Nat} {admits : UInt64 → Bool}
    {ids : List UInt64} (found : store.topKSearch query k admits = .ok ids) :
    ids.length ≤ store.base.rows.length := by
  rcases Nat.eq_zero_or_pos k with rfl | positive
  · cases found
    exact Nat.zero_le _
  · rw [topKSearch, if_neg (Nat.ne_of_gt positive)] at found
    rcases Failure.check_bind_eq_ok_iff.mp found with ⟨_, searched⟩
    rcases Failure.bind_eq_ok_iff.mp searched with ⟨rows, listed, answered⟩
    cases answered
    rcases @WorstFirst.sorted_foldl_offer _ Candidate.isNearer _ positive rows with
      ⟨_, _, kept, _⟩
    have few := length_of_candidates listed
    rw [List.length_map, nearest, kept]
    omega

theorem length_of_search {query : Query} {ids : List UInt64}
    (found : store.search query = .ok ids) : ids.length ≤ store.base.count := by
  rw [← VectorBatch.length_rows]
  unfold search at found
  split at found
  · exact length_of_idsWithin found
  · exact length_of_topKSearch found

theorem base_submit (store : MemoryStore) (query : Query) :
    (store.submit query).2.base = store.base := by
  unfold submit
  split
  · rfl
  · split <;> rfl

theorem length_of_submit {query : Query} {ids : List UInt64}
    (answered : (store.submit query).1 = .ok ids) : ids.length ≤ store.base.count := by
  unfold submit at answered
  split at answered
  · cases answered
  · split at answered
    · cases answered
    · rcases searched : store.search query with fault | found
      · rw [searched] at answered
        cases answered
      · rw [searched] at answered
        cases answered
        exact length_of_search searched

end MemoryStore

structure MemoryHost.RowsFit (host : MemoryHost) : Prop where
  template : host.template.base.count < wordLimit
  connection : host.connection.base.count < wordLimit

theorem MemoryHost.answersFit : MemoryHost.backend.AnswersFit RowsFit where
  keeps state call fit := by
    cases call with
    | connect target => exact ⟨fit.template, fit.template⟩
    | applySetting name value => exact ⟨fit.template, fit.connection⟩
    | submit query =>
        refine ⟨fit.template, ?_⟩
        change (state.connection.submit query).2.base.count < wordLimit
        rw [MemoryStore.base_submit]
        exact fit.connection
    | close => exact ⟨fit.template, fit.connection⟩
  answers state query ids fit answered :=
    Nat.lt_of_le_of_lt (MemoryStore.length_of_submit answered) fit.connection

end RangeRecall
