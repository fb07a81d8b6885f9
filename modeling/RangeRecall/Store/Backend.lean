import RangeRecall.Error
import RangeRecall.Files.Tree
import RangeRecall.Query.Workload

/-!
Vector stores as the harness sees them, the calls that they receive and the
messages that are logged about them. A backend says what each call answers and
how it changes the state `σ` of whatever stands behind it. The same state tells
whether somebody has asked for the run to stop.
-/

namespace RangeRecall

inductive StoreCall where
  | connect (target : SqlTarget)
  | applySetting (name value : String)
  | submit (query : Query)
  | close
deriving DecidableEq, Repr

def StoreCall.text : StoreCall → String
  | .connect target =>
    "connect " ++ target.table ++ "." ++ target.idColumn ++ "." ++ target.vectorColumn
  | .applySetting name value => "set " ++ name ++ "=" ++ value
  | .submit query =>
    "submit " ++ Decimal.naturalText query.index ++ " " ++ query.strategy.name
  | .close => "close"

/-- A message about the progress of a session or a run. -/
inductive LogMessage where
  | openingSession (table : String)
  | applyingSetting (name value : String)
  | closeFailed (error : StoreError)
  | runStarted (strategy : ScanStrategy) (queries : Nat)
  | progress (strategy : ScanStrategy) (completed total : Nat)
  | runFinished (strategy : ScanStrategy) (queries : Nat)
deriving DecidableEq, Repr

def LogMessage.text : LogMessage → String
  | .openingSession table => "DEBUG opening store session table=" ++ table
  | .applyingSetting name value =>
    "DEBUG applying session setting name=" ++ name ++ " value=" ++ value
  | .closeFailed error => "WARN failed to close store session error=" ++ error.message
  | .runStarted strategy queries =>
    "INFO starting run strategy=" ++ strategy.name ++ " queries=" ++
      Decimal.naturalText queries
  | .progress strategy completed total =>
    "DEBUG progress strategy=" ++ strategy.name ++ " completed=" ++
      Decimal.naturalText completed ++ " total=" ++ Decimal.naturalText total
  | .runFinished strategy queries =>
    "INFO run finished strategy=" ++ strategy.name ++ " queries=" ++
      Decimal.naturalText queries

/-! ## Backends -/

structure Backend (σ : Type) where
  connect : SqlTarget → σ → Except StoreError Unit × σ
  applySetting : String → String → σ → Except StoreError Unit × σ
  submit : Query → σ → Except (Failure StoreError) (List UInt64) × σ
  close : σ → Except StoreError Unit × σ
  stopRequested : σ → Bool

namespace Backend

/-- The backend together with a record of its calls, the latest last. -/
def recorded (backend : Backend σ) : Backend (σ × List StoreCall) where
  connect target := fun (state, calls) =>
    let (reply, next) := backend.connect target state
    (reply, next, calls ++ [.connect target])
  applySetting name value := fun (state, calls) =>
    let (reply, next) := backend.applySetting name value state
    (reply, next, calls ++ [.applySetting name value])
  submit query := fun (state, calls) =>
    let (reply, next) := backend.submit query state
    (reply, next, calls ++ [.submit query])
  close := fun (state, calls) =>
    let (reply, next) := backend.close state
    (reply, next, calls ++ [.close])
  stopRequested := fun (state, _) => backend.stopRequested state

/-- The backend of a store that knows queries only: settings and closing succeed and do not
reach it. -/
def queriesOnly (backend : Backend σ) : Backend σ :=
  { backend with
    applySetting := fun _ _ state => (.ok (), state)
    close := fun state => (.ok (), state) }

end Backend

/-- Everything outside the harness that it can touch: the state behind the backend, the files,
and the log, the latest message last. -/
structure Environment (σ : Type) where
  store : σ
  files : FileTree := {}
  log : List LogMessage := []

/-- A step of the harness. It changes the environment, also when it fails. -/
def Activity (σ α : Type) := Environment σ → Attempt α × Environment σ

namespace Activity

def pure (value : α) : Activity σ α :=
  fun environment => (.ok value, environment)

def bind (first : Activity σ α) (second : α → Activity σ β) : Activity σ β :=
  fun environment =>
    match first environment with
    | (.ok value, next) => second value next
    | (.error failure, next) => (.error failure, next)

instance : Monad (Activity σ) where
  pure := pure
  bind := bind

def fail (failure : Failure Error) : Activity σ α :=
  fun environment => (.error failure, environment)

def ofAttempt (attempt : Attempt α) : Activity σ α :=
  fun environment => (attempt, environment)

def ofResult (result : Except Error α) : Activity σ α :=
  ofAttempt (result.mapError .error)

def readFiles (look : FileTree → Except Error α) : Activity σ α :=
  fun environment => ofResult (look environment.files) environment

/-- Changes the files. A change that fails leaves what it has done by then. -/
def changeFiles (change : FileTree → Except Error Unit × FileTree) : Activity σ Unit :=
  fun environment =>
    let (result, files) := change environment.files
    (result.mapError .error, { environment with files := files })

def report (message : LogMessage) : Activity σ Unit :=
  fun environment => (.ok (), { environment with log := environment.log ++ [message] })

def call (operation : σ → Except ε α × σ) (explain : ε → Failure Error) : Activity σ α :=
  fun environment =>
    match operation environment.store with
    | (.ok value, store) => (.ok value, { environment with store := store })
    | (.error cause, store) => (.error (explain cause), { environment with store := store })

def forAll (step : α → Activity σ β) : List α → Activity σ (List β)
  | [] => pure []
  | item :: rest => do
    let result ← step item
    let results ← forAll step rest
    return result :: results

end Activity

end RangeRecall
