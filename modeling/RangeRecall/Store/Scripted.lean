import RangeRecall.Store.Backend

/-!
Stores that answer from a script, for rehearsing runs. The script lists the
answers and the call at which something goes wrong.
-/

namespace RangeRecall

/-- What a scripted store answers. The submits of one connection are counted from one. -/
structure StoreScript where
  indexScanAnswers : List (List UInt64) := []
  sequentialScanAnswers : List (List UInt64) := []
  stopAfterSubmit : Option Nat := none
  failAtSubmit : Option Nat := none
  submitError : Option StoreError := none
  rejectedSetting : Option String := none
  settingError : Option StoreError := none
  closeError : Option StoreError := none
  connectError : Option StoreError := none
deriving DecidableEq, Repr

structure ScriptedState where
  submits : Nat := 0
  stopRequested : Bool := false
deriving DecidableEq, Repr

namespace StoreScript

def answers (script : StoreScript) : ScanStrategy → List (List UInt64)
  | .indexScan => script.indexScanAnswers
  | .sequentialScan => script.sequentialScanAnswers

def failWith : Option StoreError → Except StoreError Unit
  | none => .ok ()
  | some error => .error error

def answer (script : StoreScript) (submits : Nat) (query : Query) :
    Except StoreError (List UInt64) := do
  if script.failAtSubmit = some submits then
    failWith script.submitError
  match (script.answers query.strategy)[query.index]? with
  | some ids => return ids
  | none =>
    throw {
      kind := .rejected
      detail := "no answer for query " ++ Decimal.naturalText query.index }

def backend (script : StoreScript) : Backend ScriptedState where
  connect _ state := (failWith script.connectError, { state with submits := 0 })
  applySetting name _ state :=
    (if script.rejectedSetting = some name then failWith script.settingError else .ok (),
      state)
  submit query state :=
    let submits := state.submits + 1
    ((script.answer submits query).mapError .error,
      { submits := submits
        stopRequested := state.stopRequested || script.stopAfterSubmit == some submits })
  close state := (failWith script.closeError, state)
  stopRequested state := state.stopRequested

end StoreScript

end RangeRecall
