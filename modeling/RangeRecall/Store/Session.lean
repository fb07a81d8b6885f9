import RangeRecall.Store.Backend

/-!
Sessions with a store. A session remembers whether its store has been closed. It
is either finished, which reports a failure to close, or dropped, which only logs
it, and when it goes out of scope it closes a store that is still open. Whatever
fails while a session is open drops it.
-/

namespace RangeRecall

structure Session where
  closed : Bool := false
deriving DecidableEq

namespace Session

variable {session : Session}

/-- Lets the session go out of scope. -/
def drop (backend : Backend σ) (session : Session) : Activity σ Unit :=
  fun environment =>
    if session.closed then (.ok (), environment)
    else
      match backend.close environment.store with
      | (.ok (), store) => (.ok (), { environment with store := store })
      | (.error error, store) =>
        (.ok (), { environment with
          store := store, log := environment.log ++ [.closeFailed error] })

/-- Does the last thing with the session, which goes out of scope however this ends. -/
def dropAfter (backend : Backend σ) (session : Session) (activity : Activity σ α) :
    Activity σ α :=
  fun environment =>
    let (result, next) := activity environment
    (result, (drop backend session next).2)

/-- Closes the store and reports a failure to do so. The session is marked before, since it is
dropped after a failure as well. -/
def finish (backend : Backend σ) (session : Session) : Activity σ Unit :=
  dropAfter backend { session with closed := true }
    (Activity.call backend.close fun error => .error (.storeConnection error))

theorem drop_of_closed (backend : Backend σ) (closed : session.closed = true) :
    drop backend session = Activity.pure () := by
  funext environment
  rw [drop, if_pos closed]
  rfl

/-- The drop after the close finds the mark, so the close of a finish is its only one. -/
theorem finish_eq_close (backend : Backend σ) (session : Session) :
    finish backend session =
      Activity.call backend.close fun error => .error (.storeConnection error) := by
  funext environment
  rw [finish, dropAfter, drop_of_closed backend rfl]
  rfl

def dropOnFailure (backend : Backend σ) (session : Session) (activity : Activity σ α) :
    Activity σ α :=
  fun environment =>
    match activity environment with
    | (.ok value, next) => (.ok value, next)
    | (.error failure, next) => (.error failure, (drop backend session next).2)

def connect (backend : Backend σ) (target : SqlTarget) : Activity σ Unit := do
  Activity.report (.openingSession target.table)
  Activity.call (backend.connect target) fun error => .error (.storeConnection error)

def applySetting (backend : Backend σ) (setting : String × String) : Activity σ Unit := do
  Activity.report (.applyingSetting setting.1 setting.2)
  Activity.call (backend.applySetting setting.1 setting.2) fun error =>
    .error (.storeConnection error)

def start (backend : Backend σ) (target : SqlTarget) (settings : List (String × String)) :
    Activity σ Session := do
  connect backend target
  let session : Session := {}
  dropOnFailure backend session do
    let _ ← Activity.forAll (applySetting backend) settings
    return ()
  return session

end Session

end RangeRecall
