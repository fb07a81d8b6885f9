import RangeRecall.Store.Backend

/-! How activities run: what a step makes of an environment, which steps keep away from the store
or from the files, and what holds of the results of steps that succeed. -/

namespace RangeRecall

namespace Activity

/-! ## Running composed activities -/

@[simp] theorem pure_run (value : α) (environment : Environment σ) :
    (Pure.pure value : Activity σ α) environment = (.ok value, environment) := rfl

@[simp] theorem report_run (message : LogMessage) (environment : Environment σ) :
    report message environment =
      (.ok (), { environment with log := environment.log ++ [message] }) := rfl

theorem bind_run (first : Activity σ α) (second : α → Activity σ β)
    (environment : Environment σ) :
    (first >>= second) environment =
      match first environment with
      | (.ok value, next) => second value next
      | (.error failure, next) => (.error failure, next) := rfl

theorem bind_run_ok {first : Activity σ α} {environment next : Environment σ} {value : α}
    (run : first environment = (.ok value, next)) (second : α → Activity σ β) :
    (first >>= second) environment = second value next := by
  rw [bind_run, run]

theorem bind_run_error {first : Activity σ α} {environment next : Environment σ}
    {failure : Failure Error} (run : first environment = (.error failure, next))
    (second : α → Activity σ β) :
    (first >>= second) environment = (.error failure, next) := by
  rw [bind_run, run]

theorem bind_assoc (first : Activity σ α) (second : α → Activity σ β)
    (third : β → Activity σ γ) :
    first >>= second >>= third = first >>= fun value => second value >>= third := by
  funext environment
  rcases run : first environment with ⟨failure | value, next⟩
  · rw [bind_run_error run, bind_run_error (bind_run_error run _)]
  · rw [bind_run_ok run, bind_run, bind_run_ok run, bind_run]

theorem bind_pure (activity : Activity σ α) :
    (activity >>= fun value => Pure.pure value) = activity := by
  funext environment
  rcases run : activity environment with ⟨failure | value, next⟩
  · exact bind_run_error run _
  · exact bind_run_ok run _

theorem bind_run_congr {first other : Activity σ α} {environment reached : Environment σ}
    (same : first environment = other reached) (second : α → Activity σ β) :
    (first >>= second) environment = (other >>= second) reached := by
  rw [bind_run, bind_run, same]

theorem ofAttempt_run (attempt : Attempt α) (environment : Environment σ) :
    ofAttempt attempt environment = (attempt, environment) := rfl

theorem ofResult_bind_run (result : Except Error α) (second : α → Activity σ β)
    (environment : Environment σ) :
    (ofResult result >>= second) environment =
      match result with
      | .error error => (.error (.error error), environment)
      | .ok value => second value environment := by
  cases result <;> rfl

theorem readFiles_bind_run (look : FileTree → Except Error α) (second : α → Activity σ β)
    (environment : Environment σ) :
    (readFiles look >>= second) environment =
      match look environment.files with
      | .error error => (.error (.error error), environment)
      | .ok value => second value environment :=
  ofResult_bind_run (look environment.files) second environment

theorem forAll_cons (step : α → Activity σ β) (item : α) (rest : List α) :
    forAll step (item :: rest) = (do
      let result ← step item
      let results ← forAll step rest
      return result :: results) := rfl

/-! ## Steps that keep away from the store -/

def LeavesStore (activity : Activity σ α) : Prop :=
  ∀ environment, (activity environment).2.store = environment.store

namespace LeavesStore

theorem pure (value : α) : LeavesStore (Pure.pure value : Activity σ α) :=
  fun _ => rfl

theorem ofAttempt (attempt : Attempt α) :
    LeavesStore (Activity.ofAttempt attempt : Activity σ α) :=
  fun _ => rfl

theorem changeFiles (change : FileTree → Except Error Unit × FileTree) :
    LeavesStore (Activity.changeFiles change : Activity σ Unit) :=
  fun _ => rfl

theorem store_bind {second : α → Activity σ β} (secondLeaves : ∀ value, LeavesStore (second value))
    (first : Activity σ α) (environment : Environment σ) :
    ((first >>= second) environment).2.store = (first environment).2.store := by
  rcases run : first environment with ⟨failure | value, next⟩
  · rw [bind_run_error run]
  · rw [bind_run_ok run]
    exact secondLeaves value next

theorem bind {first : Activity σ α} {second : α → Activity σ β}
    (firstLeaves : LeavesStore first) (secondLeaves : ∀ value, LeavesStore (second value)) :
    LeavesStore (first >>= second) := by
  intro environment
  exact (store_bind secondLeaves first environment).trans (firstLeaves environment)

theorem forAll {step : α → Activity σ β} (stepLeaves : ∀ item, LeavesStore (step item)) :
    ∀ items, LeavesStore (Activity.forAll step items)
  | [] => pure []
  | item :: rest =>
      bind (stepLeaves item) fun _ => bind (forAll stepLeaves rest) fun _ => pure _

end LeavesStore

/-! ## Steps that do not look at the files -/

def IgnoresFiles (activity : Activity σ α) : Prop :=
  ∀ environment files, activity { environment with files := files } =
    ((activity environment).1, { (activity environment).2 with files := files })

namespace IgnoresFiles

theorem pure (value : α) : IgnoresFiles (Pure.pure value : Activity σ α) :=
  fun _ _ => rfl

theorem fail (failure : Failure Error) : IgnoresFiles (Activity.fail failure : Activity σ α) :=
  fun _ _ => rfl

theorem report (message : LogMessage) : IgnoresFiles (Activity.report message : Activity σ Unit) :=
  fun _ _ => rfl

theorem ofAttempt (attempt : Attempt α) :
    IgnoresFiles (Activity.ofAttempt attempt : Activity σ α) :=
  fun _ _ => rfl

theorem call (operation : σ → Except ε α × σ) (explain : ε → Failure Error) :
    IgnoresFiles (Activity.call operation explain) := by
  intro environment files
  unfold Activity.call
  rcases operation environment.store with ⟨cause | value, store⟩ <;> rfl

theorem bind {first : Activity σ α} {second : α → Activity σ β} (firstIgnores : IgnoresFiles first)
    (secondIgnores : ∀ value, IgnoresFiles (second value)) : IgnoresFiles (first >>= second) := by
  intro environment files
  have elsewhere := firstIgnores environment files
  rcases run : first environment with ⟨failure | value, next⟩
  · rw [run] at elsewhere
    rw [bind_run_error run, bind_run_error elsewhere]
  · rw [run] at elsewhere
    rw [bind_run_ok run, bind_run_ok elsewhere]
    exact secondIgnores value next files

theorem forAll {step : α → Activity σ β} (stepIgnores : ∀ item, IgnoresFiles (step item)) :
    ∀ items, IgnoresFiles (Activity.forAll step items)
  | [] => pure []
  | item :: rest =>
      bind (stepIgnores item) fun _ => bind (forAll stepIgnores rest) fun _ => pure _

end IgnoresFiles

/-! ## Steps that succeed -/

/-- From every state that satisfies `before`, the activity answers with `value`, leaves the files
alone and ends in a state that satisfies `after`. -/
def Yields (before : σ → Prop) (activity : Activity σ α) (value : α) (after : σ → Prop) : Prop :=
  ∀ environment, before environment.store →
    ∃ next, activity environment = (.ok value, next) ∧ after next.store ∧
      next.files = environment.files

namespace Yields

variable {before between after : σ → Prop}

theorem pure (value : α) : Yields before (Pure.pure value) value before :=
  fun environment holds => ⟨environment, rfl, holds, rfl⟩

theorem report (message : LogMessage) : Yields before (Activity.report message) () before :=
  fun _ holds => ⟨_, rfl, holds, rfl⟩

theorem bind {first : Activity σ α} {second : α → Activity σ β} {value : α} {result : β}
    (firstYields : Yields before first value between)
    (secondYields : Yields between (second value) result after) :
    Yields before (first >>= second) result after := by
  intro environment holds
  rcases firstYields environment holds with ⟨middle, run, reached, kept⟩
  rcases secondYields middle reached with ⟨last, rest, ended, keptAgain⟩
  exact ⟨last, by rw [bind_run_ok run, rest], ended, keptAgain.trans kept⟩

theorem call {operation : σ → Except ε α × σ} {value : α} (explain : ε → Failure Error)
    (answers : ∀ state, before state →
      (operation state).1 = .ok value ∧ after (operation state).2) :
    Yields before (Activity.call operation explain) value after := by
  intro environment holds
  have answered := answers environment.store holds
  rcases reply : operation environment.store with ⟨outcome, next⟩
  rw [reply] at answered
  rcases answered with ⟨rfl, reached⟩
  exact ⟨{ environment with store := next }, by simp only [Activity.call, reply], reached, rfl⟩

theorem forAll {step : α → Activity σ β} {result : α → β} {items : List α}
    (stepYields : ∀ item ∈ items, Yields before (step item) (result item) before) :
    Yields before (Activity.forAll step items) (items.map result) before := by
  induction items with
  | nil => exact pure []
  | cons item rest induction =>
      have others := induction fun other member =>
        stepYields other (List.mem_cons_of_mem _ member)
      rw [forAll_cons, List.map_cons]
      exact bind (stepYields item List.mem_cons_self) (bind others (pure _))

end Yields

/-! ## What steps make sure of -/

/-- From a steady state, the activity only succeeds with values that satisfy the predicate, and in
a steady state. -/
def Ensures (steady : σ → Prop) (activity : Activity σ α) (holds : α → Prop) : Prop :=
  ∀ environment value last, steady environment.store → activity environment = (.ok value, last) →
    holds value ∧ steady last.store

namespace Ensures

variable {steady : σ → Prop}

theorem pure {value : α} {holds : α → Prop} (satisfied : holds value) :
    Ensures steady (Pure.pure value) holds := by
  intro environment result last begun ran
  cases ran
  exact ⟨satisfied, begun⟩

theorem report (message : LogMessage) :
    Ensures steady (Activity.report message) fun _ => True := by
  intro environment result last begun ran
  cases ran
  exact ⟨trivial, begun⟩

theorem bind {first : Activity σ α} {second : α → Activity σ β} {holds : α → Prop}
    {result : β → Prop} (firstEnsures : Ensures steady first holds)
    (secondEnsures : ∀ value, holds value → Ensures steady (second value) result) :
    Ensures steady (first >>= second) result := by
  intro environment value last begun ran
  rcases reply : first environment with ⟨failure | middle, next⟩
  · rw [bind_run_error reply] at ran
    cases ran
  · rw [bind_run_ok reply] at ran
    rcases firstEnsures environment middle next begun reply with ⟨satisfied, reached⟩
    exact secondEnsures middle satisfied next value last reached ran

theorem call {operation : σ → Except ε α × σ} (explain : ε → Failure Error) {holds : α → Prop}
    (keeps : ∀ state, steady state → steady (operation state).2)
    (answers : ∀ state value, steady state → (operation state).1 = .ok value → holds value) :
    Ensures steady (Activity.call operation explain) holds := by
  intro environment value last begun ran
  have kept := keeps environment.store begun
  have answered := answers environment.store value begun
  rcases reply : operation environment.store with ⟨cause | result, next⟩
  · simp only [Activity.call, reply] at ran
    cases ran
  · simp only [Activity.call, reply] at ran
    rw [reply] at kept answered
    cases ran
    exact ⟨answered rfl, kept⟩

theorem forAll {step : α → Activity σ β} {holds : β → Prop}
    (stepEnsures : ∀ item, Ensures steady (step item) holds) :
    ∀ items, Ensures steady (Activity.forAll step items) fun results =>
      ∀ result ∈ results, holds result
  | [] => pure fun _ member => absurd member List.not_mem_nil
  | item :: rest => by
      rw [forAll_cons]
      refine bind (stepEnsures item) fun result satisfied => ?_
      refine bind (forAll stepEnsures rest) fun results others => ?_
      exact pure (List.forall_mem_cons.mpr ⟨satisfied, others⟩)

end Ensures

end Activity

end RangeRecall
