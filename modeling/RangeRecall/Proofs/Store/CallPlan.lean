import RangeRecall.Proofs.Store.Activity
import RangeRecall.Store.Session

/-! Plans of store calls, and the activities that carry them out. A plan ends early right after
the first call that fails, and right before a submit at which a stop request is heeded. The
calls of an activity are read off the recorded backend, so they are compared with the plan one
by one, whatever the store answers. -/

namespace RangeRecall

def StoreCall.isSubmit : StoreCall → Bool
  | .submit _ => true
  | _ => false

/-- What became of a plan: the calls that were made, the state after them, and whether the plan
was carried out to its end. -/
structure Passage (σ : Type) where
  calls : List StoreCall
  state : σ
  complete : Bool

namespace Backend

def perform (backend : Backend σ) (state : σ) : StoreCall → Bool × σ
  | .connect target =>
      let (reply, next) := backend.connect target state
      (reply.isOk, next)
  | .applySetting name value =>
      let (reply, next) := backend.applySetting name value state
      (reply.isOk, next)
  | .submit query =>
      let (reply, next) := backend.submit query state
      (reply.isOk, next)
  | .close =>
      let (reply, next) := backend.close state
      (reply.isOk, next)

def carryOut (backend : Backend σ) (heedsStop : Bool) : List StoreCall → σ → Passage σ
  | [], state => { calls := [], state := state, complete := true }
  | call :: rest, state =>
      if heedsStop && call.isSubmit && backend.stopRequested state then
        { calls := [], state := state, complete := false }
      else
        match backend.perform state call with
        | (false, next) => { calls := [call], state := next, complete := false }
        | (true, next) =>
            let later := backend.carryOut heedsStop rest next
            { later with calls := call :: later.calls }

theorem carryOut_append (backend : Backend σ) (heedsStop : Bool) (plan rest : List StoreCall)
    (state : σ) :
    backend.carryOut heedsStop (plan ++ rest) state =
      let first := backend.carryOut heedsStop plan state
      if first.complete then
        let second := backend.carryOut heedsStop rest first.state
        { second with calls := first.calls ++ second.calls }
      else first := by
  induction plan generalizing state with
  | nil => rfl
  | cons call plan induction =>
      simp only [List.cons_append, carryOut]
      split
      · rfl
      · rcases backend.perform state call with ⟨_ | _, next⟩
        · rfl
        · simp only [induction next]
          split <;> rfl

theorem carryOut_prefix (backend : Backend σ) (heedsStop : Bool) (plan : List StoreCall)
    (state : σ) : (backend.carryOut heedsStop plan state).calls <+: plan := by
  induction plan generalizing state with
  | nil => exact List.prefix_rfl
  | cons call plan induction =>
      simp only [carryOut]
      split
      · exact List.nil_prefix
      · rcases backend.perform state call with ⟨_ | _, next⟩
        · exact ⟨plan, rfl⟩
        · exact (List.prefix_cons_inj call).mpr (induction next)

end Backend

namespace Activity

/-- Whatever the environment, the activity makes the calls that carrying out the plan makes, and
it succeeds just in case the plan is carried out to its end. -/
def CarriesOut (backend : Backend σ) (heedsStop : Bool)
    (activity : Activity (σ × List StoreCall) α) (plan : List StoreCall) : Prop :=
  ∀ environment,
    let passage := backend.carryOut heedsStop plan environment.store.1
    (activity environment).2.store =
        (passage.state, environment.store.2 ++ passage.calls) ∧
      (activity environment).1.isOk = passage.complete

namespace CarriesOut

variable {backend : Backend σ} {heedsStop : Bool}

theorem run_ok {activity : Activity (σ × List StoreCall) α} {plan : List StoreCall}
    (carries : CarriesOut backend heedsStop activity plan)
    {environment : Environment (σ × List StoreCall)}
    (complete : (backend.carryOut heedsStop plan environment.store.1).complete = true) :
    ∃ value next, activity environment = (.ok value, next) ∧
      next.store = ((backend.carryOut heedsStop plan environment.store.1).state,
        environment.store.2 ++ (backend.carryOut heedsStop plan environment.store.1).calls) := by
  have made := carries environment
  rcases run : activity environment with ⟨failure | value, next⟩
  · simp [run, complete, Except.isOk, Except.toBool] at made
  · exact ⟨value, next, rfl, by simpa only [run] using made.1⟩

theorem run_error {activity : Activity (σ × List StoreCall) α} {plan : List StoreCall}
    (carries : CarriesOut backend heedsStop activity plan)
    {environment : Environment (σ × List StoreCall)}
    (incomplete : (backend.carryOut heedsStop plan environment.store.1).complete = false) :
    ∃ failure next, activity environment = (.error failure, next) ∧
      next.store.2 = environment.store.2 ++
        (backend.carryOut heedsStop plan environment.store.1).calls := by
  have made := carries environment
  rcases run : activity environment with ⟨failure | value, next⟩
  · exact ⟨failure, next, rfl, by simp only [run] at made; rw [made.1]⟩
  · simp [run, incomplete, Except.isOk, Except.toBool] at made

theorem pure (value : α) :
    CarriesOut backend heedsStop (Pure.pure value) [] := by
  intro environment
  simp [Backend.carryOut, Except.isOk, Except.toBool]

theorem report (message : LogMessage) :
    CarriesOut backend heedsStop (Activity.report message) [] := by
  intro environment
  simp [Backend.carryOut, Except.isOk, Except.toBool]

theorem bind {first : Activity (σ × List StoreCall) α}
    {second : α → Activity (σ × List StoreCall) β} {plan rest : List StoreCall}
    (firstCarries : CarriesOut backend heedsStop first plan)
    (secondCarries : ∀ value, CarriesOut backend heedsStop (second value) rest) :
    CarriesOut backend heedsStop (first >>= second) (plan ++ rest) := by
  intro environment
  have made := firstCarries environment
  rcases run : first environment with ⟨failure | value, next⟩
  · rw [bind_run_error run, Backend.carryOut_append]
    simp only [run] at made
    have incomplete := made.2.symm
    simp only [Except.isOk, Except.toBool] at incomplete
    simp [incomplete, made.1, Except.isOk, Except.toBool]
  · rw [bind_run_ok run, Backend.carryOut_append]
    simp only [run] at made
    have complete := made.2.symm
    simp only [Except.isOk, Except.toBool] at complete
    have later := secondCarries value next
    simp only [made.1] at later
    simp [complete, later.1, later.2]

theorem forAll {step : α → Activity (σ × List StoreCall) β} {plan : α → List StoreCall}
    (stepCarries : ∀ item, CarriesOut backend heedsStop (step item) (plan item)) :
    ∀ items, CarriesOut backend heedsStop (Activity.forAll step items) (items.flatMap plan)
  | [] => pure []
  | item :: rest => by
      rw [List.flatMap_cons, forAll_cons]
      refine bind (stepCarries item) fun result => ?_
      have others := bind (forAll stepCarries rest) fun results => pure (result :: results)
      simpa only [List.append_nil] using others

theorem call {call : StoreCall}
    {operation : σ × List StoreCall → Except ε α × (σ × List StoreCall)}
    (explain : ε → Failure Error) (free : (heedsStop && call.isSubmit) = false)
    (performs : ∀ state calls,
      (operation (state, calls)).2 = ((backend.perform state call).2, calls ++ [call]) ∧
        (operation (state, calls)).1.isOk = (backend.perform state call).1) :
    CarriesOut backend heedsStop (Activity.call operation explain) [call] := by
  intro environment
  have performed := performs environment.store.1 environment.store.2
  rcases made : backend.perform environment.store.1 call with ⟨succeeds, state⟩
  simp only [Activity.call, Backend.carryOut, free, Bool.false_and, made] at performed ⊢
  rcases answered : operation environment.store with ⟨failure | value, store⟩
  · simp only [answered, Except.isOk, Except.toBool] at performed
    cases performed.2
    simp [performed.1, Except.isOk, Except.toBool]
  · simp only [answered, Except.isOk, Except.toBool] at performed
    cases performed.2
    simp [performed.1, Except.isOk, Except.toBool]

end CarriesOut

end Activity

namespace Session

variable {backend : Backend σ} {heedsStop : Bool} {session : Session}

theorem connect_carriesOut (target : SqlTarget) :
    Activity.CarriesOut backend heedsStop (connect backend.recorded target)
      [.connect target] :=
  .bind (.report _) fun _ => .call _ (Bool.and_false _) fun _ _ => ⟨rfl, rfl⟩

theorem applySetting_carriesOut (setting : String × String) :
    Activity.CarriesOut backend heedsStop (applySetting backend.recorded setting)
      [.applySetting setting.1 setting.2] :=
  .bind (.report _) fun _ => .call _ (Bool.and_false _) fun _ _ => ⟨rfl, rfl⟩

theorem drop_calls (isOpen : session.closed = false)
    (environment : Environment (σ × List StoreCall)) :
    (drop backend.recorded session environment).2.store.2 = environment.store.2 ++ [.close] := by
  have recorded : (backend.recorded.close environment.store).2.2 =
      environment.store.2 ++ [.close] := rfl
  rw [drop, if_neg (Bool.eq_false_iff.mp isOpen)]
  rcases reply : backend.recorded.close environment.store with ⟨error | _, closed⟩
  · simpa only [reply] using recorded
  · simpa only [reply] using recorded

theorem finish_calls (session : Session) (value : α)
    (environment : Environment (σ × List StoreCall)) :
    ((do
      finish backend.recorded session
      return value) environment).2.store.2 = environment.store.2 ++ [.close] := by
  have finishes : Activity.CarriesOut backend false (finish backend.recorded session) [.close] := by
    rw [finish_eq_close]
    exact .call _ rfl fun _ _ => ⟨rfl, rfl⟩
  have whole : Activity.CarriesOut backend false (do
      finish backend.recorded session
      return value) ([.close] ++ []) := finishes.bind fun _ => .pure value
  rw [(whole environment).1]
  rcases made : backend.perform environment.store.1 .close with ⟨_ | _, state⟩
  · simp [Backend.carryOut, made]
  · simp [Backend.carryOut, made]

theorem dropOnFailure_run_ok {activity : Activity (σ × List StoreCall) α}
    {plan : List StoreCall}
    (carries : Activity.CarriesOut backend heedsStop activity plan)
    {environment : Environment (σ × List StoreCall)}
    (complete : (backend.carryOut heedsStop plan environment.store.1).complete = true) :
    ∃ value next,
      dropOnFailure backend.recorded session activity environment = (.ok value, next) ∧
      next.store = ((backend.carryOut heedsStop plan environment.store.1).state,
        environment.store.2 ++ (backend.carryOut heedsStop plan environment.store.1).calls) := by
  rcases carries.run_ok complete with ⟨value, next, run, store⟩
  exact ⟨value, next, by simp only [dropOnFailure, run], store⟩

theorem dropOnFailure_run_error (isOpen : session.closed = false)
    {activity : Activity (σ × List StoreCall) α}
    {plan : List StoreCall}
    (carries : Activity.CarriesOut backend heedsStop activity plan)
    {environment : Environment (σ × List StoreCall)}
    (incomplete : (backend.carryOut heedsStop plan environment.store.1).complete = false) :
    ∃ failure next,
      dropOnFailure backend.recorded session activity environment = (.error failure, next) ∧
        next.store.2 = environment.store.2 ++
          (backend.carryOut heedsStop plan environment.store.1).calls ++ [.close] := by
  rcases carries.run_error incomplete with ⟨failure, next, run, calls⟩
  refine ⟨failure, (drop backend.recorded session next).2, by simp only [dropOnFailure, run], ?_⟩
  rw [drop_calls isOpen, calls]

theorem enclosed_calls (isOpen : session.closed = false) {first : Activity (σ × List StoreCall) α}
    {second : Activity (σ × List StoreCall) β} {plan rest : List StoreCall}
    (firstCarries : Activity.CarriesOut backend heedsStop first plan)
    (secondCarries : Activity.CarriesOut backend heedsStop second rest)
    (environment : Environment (σ × List StoreCall)) :
    ((do
      let _ ← dropOnFailure backend.recorded session first
      let result ← dropOnFailure backend.recorded session second
      finish backend.recorded session
      return result) environment).2.store.2 =
      environment.store.2 ++
        (backend.carryOut heedsStop (plan ++ rest) environment.store.1).calls ++ [.close] := by
  rw [Backend.carryOut_append]
  cases firstEnd : (backend.carryOut heedsStop plan environment.store.1).complete with
  | false =>
      -- The second plan and the finish are never reached.
      rcases dropOnFailure_run_error isOpen firstCarries firstEnd with
        ⟨failure, next, run, calls⟩
      rw [Activity.bind_run_error run, calls]
      simp [firstEnd]
  | true =>
      rcases dropOnFailure_run_ok firstCarries firstEnd with
        ⟨value, next, run, store⟩
      rw [Activity.bind_run_ok run]
      cases secondEnd : (backend.carryOut heedsStop rest next.store.1).complete with
      | false =>
          rcases dropOnFailure_run_error isOpen secondCarries secondEnd with
            ⟨failure, last, run, calls⟩
          rw [Activity.bind_run_error run, calls]
          simp [firstEnd, store]
      | true =>
          rcases dropOnFailure_run_ok secondCarries secondEnd with ⟨result, last, run, ended⟩
          rw [Activity.bind_run_ok run, finish_calls]
          simp [firstEnd, ended, store]

end Session

end RangeRecall
