import Mathlib.Data.List.Forall2
import RangeRecall.Proofs.Store.CallPlan

/-! The first failure of a list of store calls, and the activities that end with it. A stop
request that is heeded before a submit counts as a failure of it. What is done about a failure,
like closing the store, does not change which failure is reported. -/

namespace RangeRecall

namespace Backend

def failureOf (explain : ε → Failure Error) : Except ε α → Option (Failure Error)
  | .ok _ => none
  | .error cause => some (explain cause)

def failure? (backend : Backend σ) (heedsStop : Bool) (state : σ) :
    StoreCall → Option (Failure Error)
  | .connect target =>
      failureOf (fun error => .error (.storeConnection error)) (backend.connect target state).1
  | .applySetting name value =>
      failureOf (fun error => .error (.storeConnection error))
        (backend.applySetting name value state).1
  | .submit query =>
      if heedsStop && backend.stopRequested state then some (.error (.cancelled query.index))
      else failureOf (Failure.map (.storeExecution query)) (backend.submit query state).1
  | .close =>
      failureOf (fun error => .error (.storeConnection error)) (backend.close state).1

def after (backend : Backend σ) (calls : List StoreCall) (state : σ) : σ :=
  calls.foldl (fun state call => (backend.perform state call).2) state

def firstFailure? (backend : Backend σ) (heedsStop : Bool) :
    List StoreCall → σ → Option (Failure Error)
  | [], _ => none
  | call :: rest, state =>
      (backend.failure? heedsStop state call).or
        (backend.firstFailure? heedsStop rest (backend.perform state call).2)

theorem firstFailure?_append (backend : Backend σ) (heedsStop : Bool)
    (calls rest : List StoreCall) (state : σ) :
    backend.firstFailure? heedsStop (calls ++ rest) state =
      (backend.firstFailure? heedsStop calls state).or
        (backend.firstFailure? heedsStop rest (backend.after calls state)) := by
  induction calls generalizing state with
  | nil => rfl
  | cons call calls induction =>
      rw [List.cons_append, firstFailure?, firstFailure?, induction, Option.or_assoc]
      rfl

theorem after_append (backend : Backend σ) (calls rest : List StoreCall) (state : σ) :
    backend.after (calls ++ rest) state = backend.after rest (backend.after calls state) :=
  List.foldl_append

end Backend

namespace Activity

/-- Whatever the environment, the activity leaves the files alone. It ends with the first failure
of the calls, or without one in the state after them and with a value that satisfies the
predicate. -/
def Follows (backend : Backend σ) (heedsStop : Bool) (activity : Activity σ α)
    (calls : List StoreCall) (holds : α → Prop) : Prop :=
  ∀ environment, ∃ last, last.files = environment.files ∧
    match backend.firstFailure? heedsStop calls environment.store with
    | some failure => activity environment = (.error failure, last)
    | none => last.store = backend.after calls environment.store ∧
        ∃ value, activity environment = (.ok value, last) ∧ holds value

namespace Follows

variable {backend : Backend σ} {heedsStop : Bool} {calls rest : List StoreCall}

theorem pure {value : α} {holds : α → Prop} (satisfied : holds value) :
    Follows backend heedsStop (Pure.pure value) [] holds :=
  fun environment => ⟨environment, rfl, rfl, value, rfl, satisfied⟩

theorem report (message : LogMessage) :
    Follows backend heedsStop (Activity.report message) [] fun _ => True :=
  fun environment => ⟨{ environment with log := environment.log ++ [message] }, rfl, rfl, (), rfl,
    trivial⟩

theorem bind {first : Activity σ α} {second : α → Activity σ β} {holds : α → Prop}
    {result : β → Prop} (firstFollows : Follows backend heedsStop first calls holds)
    (secondFollows : ∀ value, holds value →
      Follows backend heedsStop (second value) rest result) :
    Follows backend heedsStop (first >>= second) (calls ++ rest) result := by
  intro environment
  rcases firstFollows environment with ⟨middle, files, ending⟩
  rw [Backend.firstFailure?_append, Backend.after_append]
  cases failed : backend.firstFailure? heedsStop calls environment.store with
  | some failure =>
      simp only [failed] at ending
      exact ⟨middle, files, bind_run_error ending second⟩
  | none =>
      simp only [failed] at ending
      rcases ending with ⟨store, value, run, satisfied⟩
      rcases secondFollows value satisfied middle with ⟨last, filesKept, ended⟩
      rw [bind_run_ok run, ← store]
      exact ⟨last, filesKept.trans files, ended⟩

theorem forAll {step : α → Activity σ β} {plan : α → List StoreCall} {related : α → β → Prop}
    (stepFollows : ∀ item, Follows backend heedsStop (step item) (plan item) (related item)) :
    ∀ items, Follows backend heedsStop (Activity.forAll step items) (items.flatMap plan)
      (List.Forall₂ related items)
  | [] => pure .nil
  | item :: rest => by
      rw [List.flatMap_cons, forAll_cons]
      refine bind (stepFollows item) fun result satisfied => ?_
      have others := bind (forAll stepFollows rest) fun results related =>
        pure (List.Forall₂.cons satisfied related)
      rwa [List.append_nil] at others

theorem call {call : StoreCall} {operation : σ → Except ε α × σ} {explain : ε → Failure Error}
    (fails : ∀ state, backend.failure? heedsStop state call =
      Backend.failureOf explain (operation state).1)
    (performs : ∀ state, (backend.perform state call).2 = (operation state).2) :
    Follows backend heedsStop (Activity.call operation explain) [call] fun _ => True := by
  intro environment
  have ending := fails environment.store
  have reached := performs environment.store
  simp only [Backend.firstFailure?, Backend.after, List.foldl_cons, List.foldl_nil, reached,
    ending, Option.or_none, Activity.call]
  rcases operation environment.store with ⟨cause | value, next⟩
  · exact ⟨{ environment with store := next }, rfl, rfl⟩
  · exact ⟨{ environment with store := next }, rfl, rfl, value, rfl, trivial⟩

end Follows

end Activity

namespace Session

variable {backend : Backend σ} {heedsStop : Bool} {calls : List StoreCall}
  {session : Session}

theorem drop_files (backend : Backend σ) (session : Session) (environment : Environment σ) :
    (drop backend session environment).2.files = environment.files := by
  unfold drop
  split
  · rfl
  rcases backend.close environment.store with ⟨error | _, closed⟩ <;> rfl

theorem dropOnFailure_follows {activity : Activity σ α} {holds : α → Prop}
    (follows : Activity.Follows backend heedsStop activity calls holds) :
    Activity.Follows backend heedsStop (dropOnFailure backend session activity) calls holds := by
  intro environment
  rcases follows environment with ⟨last, files, ending⟩
  cases failed : backend.firstFailure? heedsStop calls environment.store with
  | some failure =>
      simp only [failed] at ending
      refine ⟨(drop backend session last).2, (drop_files backend session last).trans files, ?_⟩
      simp only [dropOnFailure, ending]
  | none =>
      simp only [failed] at ending
      rcases ending with ⟨store, value, run, satisfied⟩
      exact ⟨last, files, store, value, by simp only [dropOnFailure, run], satisfied⟩

theorem connect_follows (target : SqlTarget) :
    Activity.Follows backend heedsStop (connect backend target) [.connect target] fun _ => True :=
  .bind (.report _) fun _ _ => .call (fun _ => rfl) fun _ => rfl

theorem applySetting_follows (setting : String × String) :
    Activity.Follows backend heedsStop (applySetting backend setting)
      [.applySetting setting.1 setting.2] fun _ => True :=
  .bind (.report _) fun _ _ => .call (fun _ => rfl) fun _ => rfl

theorem finish_follows :
    Activity.Follows backend heedsStop (finish backend session) [.close] fun _ => True := by
  rw [finish_eq_close]
  exact .call (fun _ => rfl) fun _ => rfl

theorem start_follows (target : SqlTarget) (settings : List (String × String)) :
    Activity.Follows backend heedsStop (start backend target settings)
      (.connect target :: settings.map fun setting => .applySetting setting.1 setting.2)
      fun _ => True := by
  have applied : Activity.Follows backend heedsStop (do
      let _ ← Activity.forAll (applySetting backend) settings
      return ())
      ((settings.flatMap fun setting => [.applySetting setting.1 setting.2]) ++ [])
      fun _ => True :=
    .bind (.forAll applySetting_follows settings) fun _ _ => .pure trivial
  rw [List.append_nil, ← List.map_eq_flatMap] at applied
  have settled : Activity.Follows backend heedsStop (do
      dropOnFailure backend {} do
        let _ ← Activity.forAll (applySetting backend) settings
        return ()
      return ({} : Session))
      ((settings.map fun setting => .applySetting setting.1 setting.2) ++ []) fun _ => True :=
    .bind (dropOnFailure_follows applied) fun _ _ => .pure trivial
  rw [List.append_nil] at settled
  exact .bind (connect_follows target) fun _ _ => settled

end Session

end RangeRecall
