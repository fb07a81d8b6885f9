import RangeRecall.Proofs.Run.OneStrategy

/-! How runs of queries end. A run stops before the first query at which a stop request is heeded,
fails with the first query that the store does not answer, or has a record for every query. The
store may answer as it likes, and its state may ask for a stop at any moment. -/

namespace RangeRecall

namespace Executor

/-! ## One query -/

section

variable {executor : Executor σ} {query : Query}

def seesStop (executor : Executor σ) (state : σ) : Bool :=
  executor.heedsStop && executor.backend.stopRequested state

theorem executeFrom_cons_stopped {environment : Environment σ}
    (stopped : executor.seesStop environment.store = true) (strategy : ScanStrategy)
    (total position : Nat) (query : Query) (rest : List Query) :
    executor.executeFrom strategy total position (query :: rest) environment =
      (.error (.error (.cancelled position)), environment) :=
  Activity.bind_run_error (if_pos stopped) _

theorem checkStop_run {environment : Environment σ}
    (unstopped : executor.seesStop environment.store = false) (position : Nat) :
    executor.checkStop position environment = (.ok (), environment) :=
  if_neg (Bool.eq_false_iff.mp unstopped)

theorem executeFrom_cons_failed {environment : Environment σ} {failure : Failure StoreError}
    {next : σ} (unstopped : executor.seesStop environment.store = false)
    (reply : executor.backend.submit query environment.store = (.error failure, next))
    (strategy : ScanStrategy) (total position : Nat) (rest : List Query) :
    executor.executeFrom strategy total position (query :: rest) environment =
      (.error (failure.map (Error.storeExecution query)), { environment with store := next }) := by
  have refused : executor.execute query environment =
      (.error (failure.map (Error.storeExecution query)), { environment with store := next }) := by
    apply Activity.bind_run_error
    simp only [Activity.call, reply]
  rw [executeFrom, Activity.bind_run_ok (checkStop_run unstopped position),
    Activity.bind_run_error refused]

theorem reportProgress_run (executor : Executor σ) (strategy : ScanStrategy)
    (position total : Nat) (environment : Environment σ) :
    ∃ log, executor.reportProgress strategy position total environment =
      (.ok (), { environment with log := log }) := by
  unfold reportProgress
  split
  · exact ⟨_, rfl⟩
  · exact ⟨environment.log, rfl⟩

theorem executeFrom_cons_answered {environment : Environment σ} {ids : List UInt64} {next : σ}
    (unstopped : executor.seesStop environment.store = false)
    (reply : executor.backend.submit query environment.store = (.ok ids, next))
    (strategy : ScanStrategy) (total position : Nat) (rest : List Query) :
    ∃ log, executor.executeFrom strategy total position (query :: rest) environment =
      (do
        let records ← executor.executeFrom strategy total (position + 1) rest
        return executor.recordOf (fun _ => ids) query :: records)
        { environment with store := next, log := log } := by
  have executed : executor.execute query environment =
      (.ok (executor.recordOf (fun _ => ids) query), { environment with store := next }) := by
    have called : Activity.call (executor.backend.submit query)
        (Failure.map (Error.storeExecution query)) environment =
          (.ok ids, { environment with store := next }) := by
      simp only [Activity.call, reply]
    exact Activity.bind_run_ok called _
  rcases executor.reportProgress_run strategy position total { environment with store := next }
    with ⟨log, reported⟩
  refine ⟨log, ?_⟩
  rw [executeFrom, Activity.bind_run_ok (checkStop_run unstopped position),
    Activity.bind_run_ok executed, Activity.bind_run_ok reported]

end

/-! ## Positions of a run -/

section

variable (executor : Executor σ) (queries : List Query) (state : σ)

def stateAt (position : Nat) : σ :=
  (queries.take position).foldl (fun state query => (executor.backend.submit query state).2) state

/-- At every earlier position no stop is seen, and the store answers the query. -/
def Reaches (position : Nat) : Prop :=
  ∀ earlier < position, ∀ query, queries[earlier]? = some query →
    executor.seesStop (executor.stateAt queries state earlier) = false ∧
      ∃ ids, (executor.backend.submit query (executor.stateAt queries state earlier)).1 = .ok ids

structure StopsAt (position : Nat) : Prop where
  inside : position < queries.length
  reaches : executor.Reaches queries state position
  stop : executor.seesStop (executor.stateAt queries state position) = true

structure FailsAt (position : Nat) (query : Query) (failure : Failure StoreError) : Prop where
  found : queries[position]? = some query
  reaches : executor.Reaches queries state position
  unstopped : executor.seesStop (executor.stateAt queries state position) = false
  reply : (executor.backend.submit query (executor.stateAt queries state position)).1 =
    .error failure

structure RecordsAll (records : List ExecutionRecord) : Prop where
  length : records.length = queries.length
  record : ∀ position query record, queries[position]? = some query →
    records[position]? = some record →
      record.index = query.index ∧ record.strategy = query.strategy ∧
        (executor.backend.submit query (executor.stateAt queries state position)).1 =
          .ok record.resultIds

end

variable {executor : Executor σ} {queries : List Query} {state : σ}

theorem Reaches.succ {position : Nat} {query : Query} {ids : List UInt64}
    (reaches : executor.Reaches queries state position) (found : queries[position]? = some query)
    (unstopped : executor.seesStop (executor.stateAt queries state position) = false)
    (reply : (executor.backend.submit query (executor.stateAt queries state position)).1 =
      .ok ids) : executor.Reaches queries state (position + 1) := by
  intro earlier before other member
  rcases Nat.lt_succ_iff_lt_or_eq.mp before with lower | rfl
  · exact reaches earlier lower other member
  · cases found.symm.trans member
    exact ⟨unstopped, ids, reply⟩

theorem reaches_or_obstacle (executor : Executor σ) (queries : List Query) (state : σ) :
    ∀ position, position ≤ queries.length →
      executor.Reaches queries state position ∨
        (∃ earlier, executor.StopsAt queries state earlier) ∨
        ∃ earlier query failure, executor.FailsAt queries state earlier query failure
  | 0, _ => .inl fun _ before => absurd before (Nat.not_lt_zero _)
  | position + 1, inside => by
      rcases reaches_or_obstacle executor queries state position (Nat.le_of_lt inside) with
        reaches | obstacle
      · have found : queries[position]? = some queries[position] := List.getElem?_eq_getElem inside
        cases stop : executor.seesStop (executor.stateAt queries state position) with
        | true => exact .inr (.inl ⟨position, inside, reaches, stop⟩)
        | false =>
            cases reply : (executor.backend.submit queries[position]
                (executor.stateAt queries state position)).1 with
            | ok ids => exact .inl (reaches.succ found stop reply)
            | error failure =>
                exact .inr (.inr ⟨position, queries[position], failure,
                  found, reaches, stop, reply⟩)
      · exact .inr obstacle

theorem reaches_take {position : Nat} (reaches : executor.Reaches queries state position) :
    executor.Reaches (queries.take position) state (queries.take position).length := by
  intro earlier before query found
  have lower : earlier < position :=
    Nat.lt_of_lt_of_le before (List.length_take_le position queries)
  rw [List.getElem?_take_of_lt lower] at found
  have same : executor.stateAt (queries.take position) state earlier =
      executor.stateAt queries state earlier := by
    rw [stateAt, stateAt, List.take_take, Nat.min_eq_left (Nat.le_of_lt lower)]
  rw [same]
  exact reaches earlier lower query found

theorem RecordsAll.cons {query : Query} {records : List ExecutionRecord} {ids : List UInt64}
    (others : executor.RecordsAll queries (executor.backend.submit query state).2 records)
    (reply : (executor.backend.submit query state).1 = .ok ids) :
    executor.RecordsAll (query :: queries) state
      (executor.recordOf (fun _ => ids) query :: records) := by
  refine ⟨congrArg (· + 1) others.length, ?_⟩
  intro position other record found kept
  cases position with
  | zero =>
      cases found
      cases kept
      exact ⟨rfl, rfl, reply⟩
  | succ position => exact others.record position other record found kept

def recorded (executor : Executor σ) : Executor (σ × List StoreCall) where
  backend := executor.backend.recorded
  clock := executor.clock
  heedsStop := executor.heedsStop
  progressInterval := executor.progressInterval

theorem executeFrom_passed {passed : List Query} {state : σ}
    (reaches : executor.Reaches passed state passed.length) (rest : List Query)
    (strategy : ScanStrategy) (total position : Nat)
    (environment : Environment (σ × List StoreCall)) (here : environment.store.1 = state) :
    ∃ records reached,
      reached.store = (executor.stateAt passed state passed.length,
        environment.store.2 ++ passed.map .submit) ∧
      executor.RecordsAll passed state records ∧
      executor.recorded.executeFrom strategy total position (passed ++ rest) environment =
        (do
          let later ← executor.recorded.executeFrom strategy total (position + passed.length) rest
          return records ++ later) reached := by
  induction passed generalizing state position environment with
  | nil =>
      refine ⟨[], environment, ?_, ⟨rfl, fun _ _ _ found => ?_⟩, ?_⟩
      · rw [← here, List.map_nil, List.append_nil]
        rfl
      · cases found
      · exact (congrFun (Activity.bind_pure _) environment).symm
  | cons query passed induction =>
      subst here
      rcases reaches 0 (Nat.zero_lt_succ _) query rfl with ⟨unstopped, ids, answered⟩
      have reply : executor.recorded.backend.submit query environment.store =
          (.ok ids, (executor.backend.submit query environment.store.1).2,
            environment.store.2 ++ [.submit query]) := by
        rw [← answered]
        rfl
      rcases executeFrom_cons_answered unstopped reply strategy total position (passed ++ rest)
        with ⟨log, first⟩
      -- The others are reached from the state after the first answer, one position earlier.
      have tailReaches : executor.Reaches passed (executor.backend.submit query
          environment.store.1).2 passed.length :=
        fun earlier before => reaches (earlier + 1) (Nat.succ_lt_succ before)
      rcases induction tailReaches (position + 1) {
          store := ((executor.backend.submit query environment.store.1).2,
            environment.store.2 ++ [.submit query])
          files := environment.files
          log := log } rfl with
        ⟨records, reached, store, others, later⟩
      refine ⟨executor.recordOf (fun _ => ids) query :: records, reached, ?_, ?_, ?_⟩
      · rw [store, List.map_cons, List.append_assoc]
        rfl
      · exact others.cons answered
      · have ahead : position + 1 + passed.length = position + (query :: passed).length := by
          rw [List.length_cons, Nat.add_assoc, Nat.add_comm 1]
        rw [List.cons_append, first, Activity.bind_run_congr later, Activity.bind_assoc, ahead]
        rfl

theorem executeFrom_split {position : Nat}
    (reaches : executor.Reaches queries state position) (inside : position ≤ queries.length)
    (strategy : ScanStrategy) (total : Nat) (environment : Environment (σ × List StoreCall))
    (here : environment.store.1 = state) :
    ∃ records reached,
      reached.store = (executor.stateAt queries state position,
        environment.store.2 ++ (queries.take position).map .submit) ∧
      executor.RecordsAll (queries.take position) state records ∧
      executor.recorded.executeFrom strategy total 0 queries environment =
        (do
          let later ← executor.recorded.executeFrom strategy total position
            (queries.drop position)
          return records ++ later) reached := by
  have passed := executeFrom_passed (reaches_take reaches) (queries.drop position) strategy total
    0 environment here
  rw [List.take_append_drop, stateAt, List.take_length, List.length_take_of_le inside,
    Nat.zero_add] at passed
  exact passed

/-! ## Whole runs -/

theorem run_of_mixed {query : Query} (member : query ∈ queries)
    (other : query.strategy ≠ strategyOf queries) (executor : Executor σ)
    (environment : Environment σ) :
    ∃ first ∈ queries, first.strategy ≠ strategyOf queries ∧
      executor.run queries environment =
        (.error (.error (.invalidParameter
          (.mixedStrategies first.index first.strategy (strategyOf queries)))), environment) := by
  cases found : queries.find? fun query => query.strategy ≠ strategyOf queries with
  | none =>
      have same := List.find?_eq_none.mp found query member
      exact absurd other (by simpa using same)
  | some first =>
      refine ⟨first, List.mem_of_find?_eq_some found, ?_, ?_⟩
      · simpa using List.find?_some found
      · simp only [run, found]
        rfl

def started (queries : List Query) (environment : Environment σ) : Environment σ :=
  { environment with
    log := environment.log ++ [.runStarted (strategyOf queries) queries.length] }

theorem run_of_executeFrom_error {failure : Failure Error} {environment last : Environment σ}
    (same : ∀ query ∈ queries, query.strategy = strategyOf queries)
    (failed : executor.executeFrom (strategyOf queries) queries.length 0 queries
      (started queries environment) = (.error failure, last)) :
    executor.run queries environment = (.error failure, last) := by
  rw [run_of_one_strategy same, Activity.bind_run_ok (Activity.report_run _ _)]
  exact Activity.bind_run_error failed _

theorem run_of_executeFrom_ok {records : List ExecutionRecord} {environment last : Environment σ}
    (same : ∀ query ∈ queries, query.strategy = strategyOf queries)
    (finished : executor.executeFrom (strategyOf queries) queries.length 0 queries
      (started queries environment) = (.ok records, last)) :
    executor.run queries environment =
      (.ok {
        strategy := strategyOf queries
        records := records
        wallClock := executor.clock.wallClock (strategyOf queries) },
        { last with
          log := last.log ++ [.runFinished (strategyOf queries) records.length] }) := by
  rw [run_of_one_strategy same, Activity.bind_run_ok (Activity.report_run _ _)]
  exact Activity.bind_run_ok finished _

/-- The state and the calls when so many queries have been submitted, the first ones of the list
and each of them once. -/
def storeAfter (executor : Executor σ) (queries : List Query)
    (store : σ × List StoreCall) (count : Nat) : σ × List StoreCall :=
  (executor.stateAt queries store.1 count, store.2 ++ (queries.take count).map .submit)

theorem storeAfter_succ {store : σ × List StoreCall} {position : Nat}
    (inside : position < queries.length) :
    executor.storeAfter queries store (position + 1) =
      (executor.recorded.backend.submit queries[position]
        (executor.storeAfter queries store position)).2 := by
  rw [storeAfter, stateAt, ← List.take_append_getElem inside, List.foldl_append,
    List.map_append, ← List.append_assoc]
  rfl

theorem run_of_stopsAt {position : Nat} {environment : Environment (σ × List StoreCall)}
    (same : ∀ query ∈ queries, query.strategy = strategyOf queries)
    (stops : executor.StopsAt queries environment.store.1 position) :
    ∃ last, executor.recorded.run queries environment =
        (.error (.error (.cancelled position)), last) ∧
      last.store = executor.storeAfter queries environment.store position := by
  have inside := stops.inside
  rcases executeFrom_split stops.reaches (Nat.le_of_lt inside) (strategyOf queries)
    queries.length (started queries environment) rfl with ⟨_, reached, store, -, run⟩
  have seen : executor.recorded.seesStop reached.store = true := by
    rw [store]
    exact stops.stop
  have stopped := executeFrom_cons_stopped seen (strategyOf queries) queries.length position
    queries[position] (queries.drop (position + 1))
  rw [← List.drop_eq_getElem_cons inside] at stopped
  exact ⟨_, run_of_executeFrom_error same (run.trans (Activity.bind_run_error stopped _)), store⟩

theorem run_of_failsAt {position : Nat} {query : Query} {failure : Failure StoreError}
    {environment : Environment (σ × List StoreCall)}
    (same : ∀ query ∈ queries, query.strategy = strategyOf queries)
    (fails : executor.FailsAt queries environment.store.1 position query failure) :
    ∃ last, executor.recorded.run queries environment =
        (.error (failure.map (.storeExecution query)), last) ∧
      last.store = executor.storeAfter queries environment.store (position + 1) := by
  rcases List.getElem?_eq_some_iff.mp fails.found with ⟨inside, rfl⟩
  rcases executeFrom_split fails.reaches (Nat.le_of_lt inside) (strategyOf queries)
    queries.length (started queries environment) rfl with ⟨_, reached, store, -, run⟩
  have unseen : executor.recorded.seesStop reached.store = false := by
    rw [store]
    exact fails.unstopped
  have reply : executor.recorded.backend.submit queries[position] reached.store =
      (.error failure, executor.storeAfter queries environment.store (position + 1)) := by
    rw [store, storeAfter_succ inside, ← fails.reply]
    rfl
  have failed := executeFrom_cons_failed unseen reply (strategyOf queries) queries.length position
    (queries.drop (position + 1))
  rw [← List.drop_eq_getElem_cons inside] at failed
  exact ⟨_, run_of_executeFrom_error same (run.trans (Activity.bind_run_error failed _)), rfl⟩

theorem run_of_reaches {environment : Environment (σ × List StoreCall)}
    (same : ∀ query ∈ queries, query.strategy = strategyOf queries)
    (reaches : executor.Reaches queries environment.store.1 queries.length) :
    ∃ run last, executor.recorded.run queries environment = (.ok run, last) ∧
      run.strategy = strategyOf queries ∧
      executor.RecordsAll queries environment.store.1 run.records ∧
      last.store = executor.storeAfter queries environment.store queries.length := by
  rcases executeFrom_split reaches (Nat.le_refl _) (strategyOf queries) queries.length
    (started queries environment) rfl with ⟨records, reached, store, recorded, run⟩
  rw [List.take_length] at recorded
  have finished : executor.recorded.executeFrom (strategyOf queries) queries.length 0 queries
      (started queries environment) = (.ok records, reached) := by
    rw [run, List.drop_length]
    exact congrArg (fun records => (Except.ok records, reached)) (List.append_nil records)
  exact ⟨_, _, run_of_executeFrom_ok same finished, rfl, recorded, store⟩

/-- A run of queries of different strategies is refused before any call. Any other run submits
its queries in order and ends in exactly one of three ways: it is cancelled where a stop is first
seen, after so many submits as its position tells; it fails with the query at which the store
first fails, after that submit; or it has a record of every answer, after all submits, even if a
stop is asked for during the last one. -/
theorem run_endings (executor : Executor σ) (queries : List Query)
    (environment : Environment (σ × List StoreCall)) :
    let state := environment.store.1
    let ended := executor.recorded.run queries environment
    ((∃ first ∈ queries, ∃ second ∈ queries, first.strategy ≠ second.strategy) →
      ∃ query ∈ queries, query.strategy ≠ strategyOf queries ∧
        ended = (.error (.error (.invalidParameter
          (.mixedStrategies query.index query.strategy (strategyOf queries)))), environment)) ∧
    ((∀ first ∈ queries, ∀ second ∈ queries, first.strategy = second.strategy) →
      (∀ position, executor.StopsAt queries state position →
        ended.1 = .error (.error (.cancelled position)) ∧
          ended.2.store = executor.storeAfter queries environment.store position) ∧
      (∀ position query failure, executor.FailsAt queries state position query failure →
        ended.1 = .error (failure.map (.storeExecution query)) ∧
          ended.2.store = executor.storeAfter queries environment.store (position + 1)) ∧
      (executor.Reaches queries state queries.length →
        ∃ run, ended.1 = .ok run ∧ run.strategy = strategyOf queries ∧
          executor.RecordsAll queries state run.records ∧
          ended.2.store = executor.storeAfter queries environment.store queries.length) ∧
      (executor.Reaches queries state queries.length ∨
        (∃ position, executor.StopsAt queries state position) ∨
        ∃ position query failure, executor.FailsAt queries state position query failure)) := by
  intro state ended
  constructor
  · rintro ⟨first, firstMember, second, secondMember, differ⟩
    by_cases same : first.strategy = strategyOf queries
    · exact run_of_mixed secondMember (same ▸ differ.symm) executor.recorded environment
    · exact run_of_mixed firstMember same executor.recorded environment
  · intro alike
    have same : ∀ query ∈ queries, query.strategy = strategyOf queries := by
      intro query member
      cases queries with
      | nil => cases member
      | cons first rest => exact alike query member first List.mem_cons_self
    refine ⟨?_, ?_, ?_, reaches_or_obstacle executor queries state _ (Nat.le_refl _)⟩
    · intro position stops
      rcases run_of_stopsAt same stops with ⟨last, run, store⟩
      exact ⟨congrArg Prod.fst run, (congrArg (fun ended => ended.2.store) run).trans store⟩
    · intro position query failure fails
      rcases run_of_failsAt same fails with ⟨last, run, store⟩
      exact ⟨congrArg Prod.fst run, (congrArg (fun ended => ended.2.store) run).trans store⟩
    · intro reaches
      rcases run_of_reaches same reaches with ⟨result, last, run, strategy, recorded, store⟩
      exact ⟨result, congrArg Prod.fst run, strategy, recorded,
        (congrArg (fun ended => ended.2.store) run).trans store⟩

end Executor

end RangeRecall
