import RangeRecall.Proofs.Failure
import RangeRecall.Proofs.Store.CallPlan

/-! Sessions from their opening to their end. Whatever is done with an open store, its session
closes it once and last, and who is told about a failure to close depends only on how the session
ends: a finish reports it, and every other way out warns about it. -/

namespace RangeRecall

/-- A way to use an open store: a tree of steps in which every next step may depend on all replies
so far. It ends with a value or gives up with a failure. -/
inductive StoreUse (α : Type) where
  | done (value : α)
  | giveUp (failure : Failure Error)
  | report (message : LogMessage) (next : StoreUse α)
  | applySetting (name value : String) (next : Except StoreError Unit → StoreUse α)
  | submit (query : Query) (next : Except StoreError (List UInt64) → StoreUse α)
  | close (next : Except StoreError Unit → StoreUse α)

namespace StoreUse

def NeverCloses : StoreUse α → Prop
  | done _ => True
  | giveUp _ => True
  | report _ next => next.NeverCloses
  | applySetting _ _ next => ∀ reply, (next reply).NeverCloses
  | submit _ next => ∀ reply, (next reply).NeverCloses
  | close _ => False

def run (backend : Backend σ) : StoreUse α → Activity σ α
  | done value, environment => (.ok value, environment)
  | giveUp failure, environment => (.error failure, environment)
  | report message next, environment =>
      next.run backend { environment with log := environment.log ++ [message] }
  | applySetting name value next, environment =>
      let (reply, store) := backend.applySetting name value environment.store
      (next reply).run backend { environment with store := store }
  | submit query next, environment =>
      match backend.submit query environment.store with
      | (.ok ids, store) => (next (.ok ids)).run backend { environment with store := store }
      | (.error (.error error), store) =>
          (next (.error error)).run backend { environment with store := store }
      | (.error (.fault fault), store) =>
          (.error (.fault fault), { environment with store := store })
  | close next, environment =>
      let (reply, store) := backend.close environment.store
      (next reply).run backend { environment with store := store }

def AddsCalls (mayClose : Prop) (activity : Activity (σ × List StoreCall) α) : Prop :=
  ∀ environment, ∃ made,
    (activity environment).2.store.2 = environment.store.2 ++ made ∧
      (.close ∈ made → mayClose) ∧ (activity environment).2.files = environment.files

theorem AddsCalls.mono {mayClose mayCloseToo : Prop}
    {activity : Activity (σ × List StoreCall) α} (adds : AddsCalls mayClose activity)
    (more : mayClose → mayCloseToo) : AddsCalls mayCloseToo activity := by
  intro environment
  rcases adds environment with ⟨made, calls, closes, files⟩
  exact ⟨made, calls, fun member => more (closes member), files⟩

theorem AddsCalls.of_call {mayClose : Prop} {activity later : Activity (σ × List StoreCall) α}
    (adds : AddsCalls mayClose later) (call : StoreCall) (state : σ)
    (allowed : call = .close → mayClose) {environment : Environment (σ × List StoreCall)}
    (begins : activity environment =
      later { environment with store := (state, environment.store.2 ++ [call]) }) :
    ∃ made, (activity environment).2.store.2 = environment.store.2 ++ made ∧
      (.close ∈ made → mayClose) ∧ (activity environment).2.files = environment.files := by
  rcases adds { environment with store := (state, environment.store.2 ++ [call]) } with
    ⟨made, calls, closes, files⟩
  rw [begins]
  refine ⟨call :: made, by rw [calls, List.append_assoc]; rfl, ?_, files⟩
  intro member
  rcases List.mem_cons.mp member with same | later
  · exact allowed same.symm
  · exact closes later

theorem run_addsCalls (backend : Backend σ) (use : StoreUse α) :
    AddsCalls (¬use.NeverCloses) (use.run backend.recorded) := by
  induction use with
  | done value => exact fun environment => ⟨[], by simp [run], nofun, rfl⟩
  | giveUp failure => exact fun environment => ⟨[], by simp [run], nofun, rfl⟩
  | report message next induction =>
      exact fun environment => induction { environment with log := environment.log ++ [message] }
  | applySetting name value next induction =>
      intro environment
      rcases reply : backend.applySetting name value environment.store.1 with ⟨answer, state⟩
      have later : AddsCalls (¬(applySetting name value next).NeverCloses)
          ((next answer).run backend.recorded) :=
        (induction answer).mono fun closes never => closes (never answer)
      exact later.of_call (.applySetting name value) state StoreCall.noConfusion
        (by simp only [run, Backend.recorded, reply])
  | submit query next induction =>
      intro environment
      have later (answer : Except StoreError (List UInt64)) :
          AddsCalls (¬(submit query next).NeverCloses) ((next answer).run backend.recorded) :=
        (induction answer).mono fun closes never => closes (never answer)
      rcases reply : backend.submit query environment.store.1 with ⟨(error | fault) | ids, state⟩
      · exact (later (.error error)).of_call (.submit query) state StoreCall.noConfusion
          (by simp only [run, Backend.recorded, reply])
      · -- A fault ends the use, but the submit has been called.
        exact ⟨[.submit query], by simp only [run, Backend.recorded, reply], by simp,
          by simp only [run, Backend.recorded, reply]⟩
      · exact (later (.ok ids)).of_call (.submit query) state StoreCall.noConfusion
          (by simp only [run, Backend.recorded, reply])
  | close next induction =>
      intro environment
      rcases reply : backend.close environment.store.1 with ⟨answer, state⟩
      have later : AddsCalls (¬(close next).NeverCloses) ((next answer).run backend.recorded) :=
        (induction answer).mono fun _ never => never
      exact later.of_call .close state (fun _ never => never)
        (by simp only [run, Backend.recorded, reply])

end StoreUse

namespace Backend

def applySettings (backend : Backend σ) :
    List (String × String) → σ → Option (Nat × StoreError) × σ
  | [], state => (none, state)
  | (name, value) :: rest, state =>
      match backend.applySetting name value state with
      | (.error error, next) => (some (0, error), next)
      | (.ok (), next) =>
          let (rejected, last) := backend.applySettings rest next
          (rejected.map fun (position, error) => (position + 1, error), last)

/-- The warnings that closing the store leads to when nobody is told about a failure. -/
def closeWarnings (backend : Backend σ) (state : σ) : List LogMessage :=
  match (backend.close state).1 with
  | .ok () => []
  | .error error => [.closeFailed error]

end Backend

namespace Session

variable {backend : Backend σ} {session : Session}

def applied (settings : List (String × String)) :
    Option (Nat × StoreError) → List (String × String)
  | none => settings
  | some (position, _) => settings.take (position + 1)

def settingCalls (settings : List (String × String)) : List StoreCall :=
  settings.map fun setting => .applySetting setting.1 setting.2

def settingMessages (settings : List (String × String)) : List LogMessage :=
  settings.map fun setting => .applyingSetting setting.1 setting.2

/-! ## The ways a session ends -/

inductive Ending where
  | finish
  | drop

/-- Uses the store of a session and ends the session, which is dropped if the use fails. -/
def conduct (backend : Backend σ) (session : Session) (use : Activity σ α) (ending : Ending) :
    Activity σ α := do
  let value ← dropOnFailure backend session use
  match ending with
  | .finish => finish backend session
  | .drop => drop backend session
  return value

theorem drop_run (isOpen : session.closed = false) (environment : Environment σ) :
    drop backend session environment = (.ok (), {
      store := (backend.close environment.store).2
      files := environment.files
      log := environment.log ++ backend.closeWarnings environment.store }) := by
  rw [drop, if_neg (Bool.eq_false_iff.mp isOpen), Backend.closeWarnings]
  rcases backend.close environment.store with ⟨error | _, closed⟩
  · rfl
  · simp

theorem drop_recorded_run (isOpen : session.closed = false)
    (environment : Environment (σ × List StoreCall)) :
    drop backend.recorded session environment = (.ok (), {
      store := ((backend.close environment.store.1).2, environment.store.2 ++ [.close])
      files := environment.files
      log := environment.log ++ backend.closeWarnings environment.store.1 }) :=
  drop_run isOpen environment

theorem finish_recorded_run (session : Session) (environment : Environment (σ × List StoreCall)) :
    finish backend.recorded session environment =
      ((backend.close environment.store.1).1.mapError fun error => .error (.storeConnection error),
        { environment with store :=
            ((backend.close environment.store.1).2, environment.store.2 ++ [.close]) }) := by
  rcases closing : backend.close environment.store.1 with ⟨error | _, closed⟩ <;>
    simp only [finish_eq_close, Activity.call, Backend.recorded, closing, Failure.mapError_ok,
      Failure.mapError_error]

/-! ## Opening -/

theorem applySetting_recorded_run (setting : String × String)
    (environment : Environment (σ × List StoreCall)) :
    applySetting backend.recorded setting environment =
      ((backend.applySetting setting.1 setting.2 environment.store.1).1.mapError fun error =>
          .error (.storeConnection error), {
        store := ((backend.applySetting setting.1 setting.2 environment.store.1).2,
          environment.store.2 ++ [.applySetting setting.1 setting.2])
        files := environment.files
        log := environment.log ++ [.applyingSetting setting.1 setting.2] }) := by
  rcases reply : backend.applySetting setting.1 setting.2 environment.store.1 with
    ⟨error | _, next⟩ <;>
    simp only [applySetting, Activity.bind_run, Activity.report_run, Activity.call,
      Backend.recorded, reply, Failure.mapError_ok, Failure.mapError_error]

theorem applySettings_run (settings : List (String × String))
    (environment : Environment (σ × List StoreCall)) :
    let reached := backend.applySettings settings environment.store.1
    ∃ values, Activity.forAll (applySetting backend.recorded) settings environment =
      (match reached.1 with
        | none => .ok values
        | some (_, error) => .error (.error (.storeConnection error)), {
        store := (reached.2, environment.store.2 ++ settingCalls (applied settings reached.1))
        files := environment.files
        log := environment.log ++ settingMessages (applied settings reached.1) }) := by
  induction settings generalizing environment with
  | nil =>
      refine ⟨[], ?_⟩
      simp [Activity.forAll, Activity.pure, Backend.applySettings, applied, settingCalls,
        settingMessages]
  | cons setting rest induction =>
      have first := @applySetting_recorded_run _ backend setting environment
      rcases reply : backend.applySetting setting.1 setting.2 environment.store.1 with
        ⟨error | _, next⟩
      · rw [reply, Failure.mapError_error] at first
        refine ⟨[], ?_⟩
        rw [Activity.forAll_cons, Activity.bind_run_error first]
        simp [Backend.applySettings, reply, applied, settingCalls, settingMessages]
      · rw [reply, Failure.mapError_ok] at first
        obtain ⟨values, others⟩ := induction {
          store := (next, environment.store.2 ++ [.applySetting setting.1 setting.2])
          files := environment.files
          log := environment.log ++ [.applyingSetting setting.1 setting.2] }
        refine ⟨() :: values, ?_⟩
        rw [Activity.forAll_cons, Activity.bind_run_ok first, Activity.bind_run, others]
        rcases later : backend.applySettings rest next with ⟨_ | ⟨position, error⟩, last⟩
        · simp [Backend.applySettings, reply, later, applied, settingCalls, settingMessages]
        · simp [Backend.applySettings, reply, later, applied, settingCalls, settingMessages]

theorem start_run (target : SqlTarget) (settings : List (String × String))
    (environment : Environment (σ × List StoreCall)) {connected : σ}
    (accepted : backend.connect target environment.store.1 = (.ok (), connected)) :
    let reached := backend.applySettings settings connected
    let calls := environment.store.2 ++
      .connect target :: settingCalls (applied settings reached.1)
    let log := environment.log ++
      .openingSession target.table :: settingMessages (applied settings reached.1)
    start backend.recorded target settings environment =
      match reached.1 with
      | none => (.ok {}, { store := (reached.2, calls), files := environment.files, log := log })
      | some (_, error) => (.error (.error (.storeConnection error)), {
          store := ((backend.close reached.2).2, calls ++ [.close])
          files := environment.files
          log := log ++ backend.closeWarnings reached.2 }) := by
  have connecting : connect backend.recorded target environment = (.ok (), {
      store := (connected, environment.store.2 ++ [.connect target])
      files := environment.files
      log := environment.log ++ [.openingSession target.table] }) := by
    simp only [connect, Activity.bind_run, Activity.report_run, Activity.call, Backend.recorded,
      accepted]
  obtain ⟨values, applying⟩ := @applySettings_run _ backend settings {
    store := (connected, environment.store.2 ++ [.connect target])
    files := environment.files
    log := environment.log ++ [.openingSession target.table] }
  unfold start
  rw [Activity.bind_run_ok connecting]
  rcases later : backend.applySettings settings connected with ⟨_ | ⟨position, error⟩, reached⟩
  · simp only [later] at applying
    simp [dropOnFailure, Activity.bind_run, applying]
  · simp only [later] at applying
    simp [dropOnFailure, Activity.bind_run, applying, drop_recorded_run]

/-! ## From the opening to the end -/

/-- What a session that was opened in `opened` comes to: whatever the use did, the store is closed
once more after it and nothing else happens to the store or the files. A failure to close is the
result of a finish, and a warning in all other cases. -/
structure ClosesOnce (backend : Backend σ) (session : Session) (use : StoreUse α)
    (ending : Ending) (opened : Environment (σ × List StoreCall)) : Prop where
  calls : ∃ made,
    (use.run backend.recorded opened).2.store.2 = opened.store.2 ++ made ∧
      (conduct backend.recorded session (use.run backend.recorded) ending opened).2.store.2 =
        opened.store.2 ++ made ++ [.close] ∧
      (use.NeverCloses → .close ∉ made)
  files : (conduct backend.recorded session (use.run backend.recorded) ending opened).2.files =
    opened.files
  finished : ending = .finish → ∀ value used,
    use.run backend.recorded opened = (.ok value, used) →
      let ended := conduct backend.recorded session (use.run backend.recorded) ending opened
      ended.1 = (match (backend.close used.store.1).1 with
        | .ok () => .ok value
        | .error error => .error (.error (.storeConnection error))) ∧
      ended.2.log = used.log
  dropped : ∀ result used, use.run backend.recorded opened = (result, used) →
    ending = .drop ∨ (∃ failure, result = .error failure) →
      let ended := conduct backend.recorded session (use.run backend.recorded) ending opened
      ended.1 = result ∧ ended.2.log = used.log ++ backend.closeWarnings used.store.1

theorem conduct_run_drop (isOpen : session.closed = false)
    {use : Activity (σ × List StoreCall) α} {opened used : Environment (σ × List StoreCall)}
    {result : Attempt α} {ending : Ending} (ran : use opened = (result, used))
    (dropped : ending = .drop ∨ ∃ failure, result = .error failure) :
    conduct backend.recorded session use ending opened = (result, {
      store := ((backend.close used.store.1).2, used.store.2 ++ [.close])
      files := used.files
      log := used.log ++ backend.closeWarnings used.store.1 }) := by
  rcases result with failure | value
  · have failed : dropOnFailure backend.recorded session use opened =
        (.error failure, (drop backend.recorded session used).2) := by
      rw [dropOnFailure, ran]
    rw [conduct, Activity.bind_run_error failed, drop_recorded_run isOpen]
  · have succeeded : dropOnFailure backend.recorded session use opened = (.ok value, used) := by
      rw [dropOnFailure, ran]
    rcases dropped with rfl | ⟨failure, refused⟩
    · rw [conduct, Activity.bind_run_ok succeeded]
      exact Activity.bind_run_ok (drop_recorded_run isOpen used) _
    · cases refused

theorem conduct_run_finish {use : Activity (σ × List StoreCall) α}
    {opened used : Environment (σ × List StoreCall)} {value : α}
    (ran : use opened = (.ok value, used)) :
    conduct backend.recorded session use .finish opened =
      (match (backend.close used.store.1).1 with
        | .ok () => .ok value
        | .error error => .error (.error (.storeConnection error)),
        { used with store :=
            ((backend.close used.store.1).2, used.store.2 ++ [.close]) }) := by
  have succeeded : dropOnFailure backend.recorded session use opened = (.ok value, used) := by
    rw [dropOnFailure, ran]
  rw [conduct, Activity.bind_run_ok succeeded]
  change (finish backend.recorded session >>= fun _ => pure value) used = _
  rw [Activity.bind_run, finish_recorded_run]
  rcases (backend.close used.store.1).1 with error | _ <;> rfl

theorem conduct_store (isOpen : session.closed = false) (use : Activity (σ × List StoreCall) α)
    (ending : Ending) (opened : Environment (σ × List StoreCall)) :
    let used := (use opened).2
    let ended := (conduct backend.recorded session use ending opened).2
    ended.store.2 = used.store.2 ++ [.close] ∧ ended.files = used.files := by
  rcases ran : use opened with ⟨failure | value, used⟩
  · rw [conduct_run_drop isOpen ran (.inr ⟨failure, rfl⟩)]
    exact ⟨rfl, rfl⟩
  · cases ending with
    | drop =>
        rw [conduct_run_drop isOpen ran (.inl rfl)]
        exact ⟨rfl, rfl⟩
    | finish =>
        rw [conduct_run_finish ran]
        exact ⟨rfl, rfl⟩

theorem closesOnce (backend : Backend σ) (isOpen : session.closed = false) (use : StoreUse α)
    (ending : Ending) (opened : Environment (σ × List StoreCall)) :
    ClosesOnce backend session use ending opened where
  calls := by
    rcases use.run_addsCalls backend opened with ⟨made, calls, closes, _⟩
    refine ⟨made, calls, ?_, fun never member => closes member never⟩
    rw [(conduct_store isOpen _ ending opened).1, calls]
  files := by
    rcases use.run_addsCalls backend opened with ⟨_, _, _, files⟩
    exact (conduct_store isOpen _ ending opened).2.trans files
  finished := by
    rintro rfl value used ran
    rw [conduct_run_finish ran]
    exact ⟨rfl, rfl⟩
  dropped := by
    intro result used ran dropped
    rw [conduct_run_drop isOpen ran dropped]
    exact ⟨rfl, rfl⟩

/-- A session that cannot connect makes no other call. One whose settings are rejected applies them
in order up to the rejected one, closes the store once and fails with the error of the setting,
even if closing fails as well. One that opens closes its store once and last, whatever is done with
the store and however the session ends. -/
theorem closes_store_once (backend : Backend σ) (target : SqlTarget)
    (settings : List (String × String)) (use : StoreUse α) (ending : Ending)
    (environment : Environment σ) :
    let opened := start backend.recorded target settings
      { store := (environment.store, []), files := environment.files, log := environment.log }
    opened.2.files = environment.files ∧
      match backend.connect target environment.store with
      | (.error error, _) =>
          opened.1 = .error (.error (.storeConnection error)) ∧
            opened.2.store.2 = [.connect target] ∧
            opened.2.log = environment.log ++ [.openingSession target.table]
      | (.ok (), connected) =>
          match backend.applySettings settings connected with
          | (some (position, error), reached) =>
              opened.1 = .error (.error (.storeConnection error)) ∧
                opened.2.store.2 =
                  .connect target :: settingCalls (settings.take (position + 1)) ++ [.close] ∧
                opened.2.log = environment.log ++
                  .openingSession target.table ::
                    settingMessages (settings.take (position + 1)) ++
                  backend.closeWarnings reached
          | (none, ready) =>
              ∃ session, opened.1 = .ok session ∧ opened.2.store =
                  (ready, .connect target :: settingCalls settings) ∧
                opened.2.log = environment.log ++
                  .openingSession target.table :: settingMessages settings ∧
                ClosesOnce backend session use ending opened.2 := by
  intro opened
  rcases connecting : backend.connect target environment.store with ⟨error | _, connected⟩
  · have failed : opened = (.error (.error (.storeConnection error)), {
        store := (connected, [.connect target])
        files := environment.files
        log := environment.log ++ [.openingSession target.table] }) := by
      simp only [opened, start, connect, Activity.bind_run, Activity.report_run, Activity.call,
        Backend.recorded, connecting, List.nil_append]
    rw [failed]
    exact ⟨rfl, rfl, rfl, rfl⟩
  · have applying := @start_run _ backend target settings
      { store := (environment.store, []), files := environment.files, log := environment.log } _
      connecting
    dsimp only
    rcases reached : backend.applySettings settings connected with ⟨_ | ⟨position, error⟩, ready⟩
    · simp only [reached, applied, List.nil_append] at applying
      have run : opened = _ := applying
      exact ⟨by rw [run], {}, by rw [run], by rw [run], by rw [run],
        closesOnce backend rfl use ending _⟩
    · simp only [reached, applied, List.nil_append] at applying
      have run : opened = _ := applying
      exact ⟨by rw [run], by rw [run], by rw [run], by rw [run]⟩

end Session

end RangeRecall
