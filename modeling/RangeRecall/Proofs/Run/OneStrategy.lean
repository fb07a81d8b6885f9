import RangeRecall.Proofs.Store.Activity
import RangeRecall.Proofs.Vector.Rows
import RangeRecall.Run.Executor

/-! Runs of queries of one strategy, and such runs against a store that answers every query: one
record per query, in the order of the queries, each with the store's own answer. -/

namespace RangeRecall

theorem Query.strategyOf_numbered {strategy : ScanStrategy} {kind : QueryKind} {start : Nat}
    {vectors : List (List Binary32)} {query : Query}
    (member : query ∈ numbered strategy kind start vectors) :
    query.strategy = Executor.strategyOf (numbered strategy kind start vectors) := by
  rw [strategy_of_mem_numbered member]
  cases queries : numbered strategy kind start vectors with
  | nil => simp [queries] at member
  | cons first rest =>
      have firstMember : first ∈ numbered strategy kind start vectors := by simp [queries]
      exact (strategy_of_mem_numbered firstMember).symm

namespace Executor

theorem run_of_one_strategy {queries : List Query}
    (same : ∀ query ∈ queries, query.strategy = strategyOf queries) (executor : Executor σ) :
    executor.run queries = (do
      Activity.report (.runStarted (strategyOf queries) queries.length)
      let records ← executor.executeFrom (strategyOf queries) queries.length 0 queries
      Activity.report (.runFinished (strategyOf queries) records.length)
      return {
        strategy := strategyOf queries
        records := records
        wallClock := executor.clock.wallClock (strategyOf queries) }) := by
  have noOther : queries.find? (fun query => query.strategy ≠ strategyOf queries) = none := by
    rw [List.find?_eq_none]
    intro query member
    simp [same query member]
  simp only [run, noOther]

/-! ## Answered queries -/

variable {steady : σ → Prop} {answer : Query → List UInt64}

/-- In every steady state the query gets its answer, and the state stays steady. No stop request
is heeded meanwhile. -/
def Answers (executor : Executor σ) (steady : σ → Prop) (answer : Query → List UInt64)
    (query : Query) : Prop :=
  ∀ state, steady state →
    (executor.heedsStop && executor.backend.stopRequested state) = false ∧
      (executor.backend.submit query state).1 = .ok (answer query) ∧
      steady (executor.backend.submit query state).2

def recordOf (executor : Executor σ) (answer : Query → List UInt64) (query : Query) :
    ExecutionRecord where
  index := query.index
  strategy := query.strategy
  latency := executor.clock.latency query
  resultIds := answer query

theorem checkStop_yields {executor : Executor σ}
    (unheeded : ∀ state, steady state →
      (executor.heedsStop && executor.backend.stopRequested state) = false)
    (completed : Nat) : Activity.Yields steady (executor.checkStop completed) () steady := by
  intro environment holds
  refine ⟨environment, ?_, holds, rfl⟩
  rw [checkStop, if_neg]
  simp [unheeded environment.store holds]

theorem execute_yields {executor : Executor σ} {query : Query}
    (answers : executor.Answers steady answer query) :
    Activity.Yields steady (executor.execute query) (executor.recordOf answer query) steady :=
  .bind (.call _ fun state holds => (answers state holds).2) (.pure _)

theorem reportProgress_yields (executor : Executor σ) (strategy : ScanStrategy)
    (position total : Nat) :
    Activity.Yields steady (executor.reportProgress strategy position total) () steady := by
  unfold reportProgress
  split
  · exact .report _
  · exact .pure ()

theorem executeFrom_yields {executor : Executor σ} {queries : List Query}
    (answers : ∀ query ∈ queries, executor.Answers steady answer query)
    (strategy : ScanStrategy) (total position : Nat) :
    Activity.Yields steady (executor.executeFrom strategy total position queries)
      (queries.map (executor.recordOf answer)) steady := by
  induction queries generalizing position with
  | nil => exact .pure []
  | cons query rest induction =>
      have first := answers query List.mem_cons_self
      have others := induction
        (fun other member => answers other (List.mem_cons_of_mem _ member)) (position + 1)
      rw [executeFrom, List.map_cons]
      exact .bind (checkStop_yields (fun state holds => (first state holds).1) position)
        (.bind (execute_yields first)
          (.bind (reportProgress_yields executor strategy position total)
            (.bind others (.pure _))))

theorem run_yields {executor : Executor σ} {queries : List Query}
    (same : ∀ query ∈ queries, query.strategy = strategyOf queries)
    (answers : ∀ query ∈ queries, executor.Answers steady answer query) :
    Activity.Yields steady (executor.run queries) {
      strategy := strategyOf queries
      records := queries.map (executor.recordOf answer)
      wallClock := executor.clock.wallClock (strategyOf queries) } steady := by
  rw [run_of_one_strategy same]
  exact .bind (.report _) (.bind (executeFrom_yields answers _ _ _)
    (.bind (.report _) (.pure _)))

end Executor

end RangeRecall
