import RangeRecall.Proofs.Failure
import RangeRecall.Proofs.Store.MemoryHost

/-! Stores in memory and what was done to them before. Submits and settings leave the vectors, the
metric and the numbering of a store alone, and copies of a store are stores of their own. So an
open store answers a query as if it had just been made, and everything else about it can be read
off its own past. -/

namespace RangeRecall

inductive StoreEvent where
  | submitted (query : Query) (reply : Except StoreError (List UInt64))
  | settingApplied (name value : String)
  | closed

namespace StoreEvent

def isAnswered : StoreEvent → Bool
  | submitted _ reply => reply.isOk
  | _ => false

def setting? : StoreEvent → Option (String × String)
  | settingApplied name value => some (name, value)
  | _ => none

def valueOf? (name : String) : StoreEvent → Option String
  | settingApplied applied value => if name = applied then some value else none
  | _ => none

theorem lookup_settings (name : String) (events : List StoreEvent) :
    (events.filterMap setting?).lookup name = events.findSome? (valueOf? name) := by
  induction events with
  | nil => rfl
  | cons event rest induction =>
      cases event with
      | settingApplied applied value =>
          by_cases same : name = applied
          · simp [setting?, valueOf?, same]
          · simp [setting?, valueOf?, same, List.lookup_cons, beq_false_of_ne same, induction]
      | submitted query reply =>
          simpa [List.filterMap_cons, List.findSome?_cons, setting?, valueOf?] using induction
      | closed =>
          simpa [List.filterMap_cons, List.findSome?_cons, setting?, valueOf?] using induction

end StoreEvent

/-- A store with its past, the latest last. The past of a copy begins with that of the original. -/
structure TracedStore where
  store : MemoryStore
  past : List StoreEvent

inductive StoreAction where
  | submit (query : Query)
  | applySetting (name value : String)
  | close

inductive FleetStep where
  | act (position : Nat) (action : StoreAction)
  | clone (position : Nat)

namespace TracedStore

def lastApplied? (traced : TracedStore) (name : String) : Option String :=
  traced.past.reverse.findSome? (StoreEvent.valueOf? name)

def act (traced : TracedStore) : StoreAction → Except Fault TracedStore
  | .submit query =>
      match traced.store.submit query with
      | (.ok ids, next) =>
          .ok { store := next, past := traced.past ++ [.submitted query (.ok ids)] }
      | (.error (.error error), next) =>
          .ok { store := next, past := traced.past ++ [.submitted query (.error error)] }
      | (.error (.fault fault), _) => .error fault
  | .applySetting name value => .ok {
      store := traced.store.applySetting name value
      past := traced.past ++ [.settingApplied name value] }
  | .close => .ok { store := traced.store.close, past := traced.past ++ [.closed] }

def step (stores : List TracedStore) : FleetStep → Except Fault (List TracedStore)
  | .act position action =>
      match stores[position]? with
      | none => .ok stores
      | some traced => do
          let next ← traced.act action
          return stores.set position next
  | .clone position => .ok (stores ++ stores[position]?.toList)

def run : List TracedStore → List FleetStep → Except Fault (List TracedStore)
  | stores, [] => .ok stores
  | stores, first :: rest => do
      let next ← step stores first
      run next rest

/-- The store is one that was made fresh, up to what its past accounts for. -/
structure GrownFrom (fresh : MemoryStore) (traced : TracedStore) : Prop where
  base : traced.store.base = fresh.base
  metric : traced.store.metric = fresh.metric
  idBase : traced.store.idBase = fresh.idBase
  submitted : traced.store.submitted = traced.past.countP StoreEvent.isAnswered
  settings : traced.store.settings = traced.past.reverse.filterMap StoreEvent.setting?
  closed : traced.store.closed = true ↔ .closed ∈ traced.past

end TracedStore

namespace MemoryStore

theorem submit_cases (store : MemoryStore) (query : Query) :
    (store.closed = true ∧ store.submit query =
      (.error (.error { kind := .connection, detail := "store is closed" }), store)) ∨
    (store.closed = false ∧
      (query.vector.length ≠ store.base.dimension ∧ store.base.count ≠ 0) ∧
      store.submit query = (.error (.error {
        kind := .rejected
        detail := "expected " ++ Decimal.naturalText store.base.dimension ++
          " dimensions, got " ++ Decimal.naturalText query.vector.length }), store)) ∨
    (store.closed = false ∧
      ¬(query.vector.length ≠ store.base.dimension ∧ store.base.count ≠ 0) ∧
      store.submit query = ((store.search query).mapError .fault,
        { store with submitted := store.submitted + 1 })) := by
  have isEmpty : (!store.base.isEmpty) = true ↔ store.base.count ≠ 0 := by
    simp [VectorBatch.isEmpty]
  by_cases closed : store.closed = true
  · exact .inl ⟨closed, by rw [submit, if_pos closed]⟩
  · have isOpen : store.closed = false := Bool.eq_false_iff.mpr closed
    by_cases wrong : query.vector.length ≠ store.base.dimension ∧ store.base.count ≠ 0
    · refine .inr (.inl ⟨isOpen, wrong, ?_⟩)
      rw [submit, if_neg closed, if_pos ⟨wrong.1, isEmpty.mpr wrong.2⟩]
    · refine .inr (.inr ⟨isOpen, wrong, ?_⟩)
      rw [submit, if_neg closed, if_neg fun refused => wrong ⟨refused.1, isEmpty.mp refused.2⟩]

end MemoryStore

namespace TracedStore

variable {fresh : MemoryStore} {traced next : TracedStore}

namespace GrownFrom

theorem start (isOpen : fresh.closed = false) (unsettled : fresh.settings = [])
    (unused : fresh.submitted = 0) : GrownFrom fresh { store := fresh, past := [] } where
  base := rfl
  metric := rfl
  idBase := rfl
  submitted := unused
  settings := unsettled
  closed := by simp [isOpen]

/-! ## One step -/

theorem refused (grown : GrownFrom fresh traced) {query : Query} {error : StoreError}
    (refusal : traced.store.submit query = (.error (.error error), traced.store))
    (acted : traced.act (.submit query) = .ok next) : GrownFrom fresh next := by
  simp only [act, refusal, Except.ok.injEq] at acted
  subst acted
  exact { grown with
    submitted := by simp [grown.submitted, StoreEvent.isAnswered, Except.isOk, Except.toBool]
    settings := by simp [grown.settings, List.filterMap_cons, StoreEvent.setting?]
    closed := by simp [grown.closed] }

theorem submit (grown : GrownFrom fresh traced) {query : Query}
    (acted : traced.act (.submit query) = .ok next) : GrownFrom fresh next := by
  rcases traced.store.submit_cases query with ⟨_, refusal⟩ | ⟨_, _, refusal⟩ | ⟨_, _, reply⟩
  · exact grown.refused refusal acted
  · exact grown.refused refusal acted
  · rcases found : traced.store.search query with fault | ids
    · simp only [act, reply, found, Failure.mapError_error] at acted
      cases acted
    · simp only [act, reply, found, Failure.mapError_ok, Except.ok.injEq] at acted
      subst acted
      exact { grown with
        submitted := by simp [grown.submitted, StoreEvent.isAnswered, Except.isOk, Except.toBool]
        settings := by simp [grown.settings, List.filterMap_cons, StoreEvent.setting?]
        closed := by simp [grown.closed] }

theorem act (grown : GrownFrom fresh traced) {action : StoreAction}
    (acted : traced.act action = .ok next) : GrownFrom fresh next := by
  cases action with
  | submit query => exact grown.submit acted
  | applySetting name value =>
      simp only [TracedStore.act, Except.ok.injEq] at acted
      subst acted
      exact { grown with
        submitted := by
          simp [MemoryStore.applySetting, grown.submitted, StoreEvent.isAnswered]
        settings := by simp [MemoryStore.applySetting, grown.settings, StoreEvent.setting?]
        closed := by simp [MemoryStore.applySetting, grown.closed] }
  | close =>
      simp only [TracedStore.act, Except.ok.injEq] at acted
      subst acted
      exact { grown with
        submitted := by simp [MemoryStore.close, grown.submitted, StoreEvent.isAnswered]
        settings := by
          simp [MemoryStore.close, grown.settings, List.filterMap_cons, StoreEvent.setting?]
        closed := by simp [MemoryStore.close] }

theorem step {stores after : List TracedStore} (grown : ∀ traced ∈ stores, GrownFrom fresh traced)
    {first : FleetStep} (stepped : TracedStore.step stores first = .ok after) :
    ∀ traced ∈ after, GrownFrom fresh traced := by
  cases first with
  | act position action =>
      rcases place : stores[position]? with _ | traced
      · simp only [TracedStore.step, place, Except.ok.injEq] at stepped
        exact stepped ▸ grown
      · have before := grown traced (List.mem_of_getElem? place)
        rcases acted : traced.act action with fault | next
        · simp only [TracedStore.step, place, acted] at stepped
          cases stepped
        · simp only [TracedStore.step, place, acted] at stepped
          cases stepped
          intro other member
          rcases List.mem_or_eq_of_mem_set member with old | rfl
          · exact grown other old
          · exact before.act acted
  | clone position =>
      simp only [TracedStore.step, Except.ok.injEq] at stepped
      subst stepped
      intro other member
      rcases List.mem_append.mp member with old | copy
      · exact grown other old
      · exact grown other (List.mem_of_getElem? (Option.mem_toList.mp copy))

/-! ## Any number of steps -/

theorem run {stores after : List TracedStore} (grown : ∀ traced ∈ stores, GrownFrom fresh traced)
    {steps : List FleetStep} (ran : TracedStore.run stores steps = .ok after) :
    ∀ traced ∈ after, GrownFrom fresh traced := by
  induction steps generalizing stores with
  | nil =>
      cases ran
      exact grown
  | cons first rest induction =>
      rcases stepped : TracedStore.step stores first with fault | next
      · simp only [TracedStore.run, stepped] at ran
        cases ran
      · simp only [TracedStore.run, stepped] at ran
        exact induction (step grown stepped) ran

/-! ## What the past tells -/

theorem setting?_eq (grown : GrownFrom fresh traced) (name : String) :
    traced.store.setting? name = traced.lastApplied? name := by
  rw [MemoryStore.setting?, grown.settings, StoreEvent.lookup_settings, lastApplied?]

theorem isOpen (grown : GrownFrom fresh traced) (unclosed : .closed ∉ traced.past) :
    traced.store.closed = false :=
  Bool.eq_false_iff.mpr fun closed => unclosed (grown.closed.mp closed)

theorem answersLike (grown : GrownFrom fresh traced) (unclosed : .closed ∉ traced.past) :
    traced.store.AnswersLike fresh where
  isOpen := grown.isOpen unclosed
  base := grown.base
  metric := grown.metric
  idBase := grown.idBase

theorem submit_of_closed (grown : GrownFrom fresh traced) (closed : .closed ∈ traced.past)
    (query : Query) : traced.store.submit query =
      (.error (.error { kind := .connection, detail := "store is closed" }), traced.store) := by
  rw [MemoryStore.submit, if_pos (grown.closed.mpr closed)]

theorem submit_of_open (grown : GrownFrom fresh traced) (unclosed : .closed ∉ traced.past)
    {query other : Query} (kind : query.kind = other.kind) (vector : query.vector = other.vector)
    (isOpen : fresh.closed = false) :
    (traced.store.submit query).1 = (fresh.submit other).1 := by
  have found : traced.store.search query = fresh.search other := by
    rw [(grown.answersLike unclosed).search_eq query]
    simp only [MemoryStore.search, kind, vector]
  simp only [MemoryStore.submit, grown.isOpen unclosed, isOpen, grown.base, vector, found,
    Bool.false_eq_true, if_false]
  split <;> rfl

end GrownFrom

/-- How a store replies depends on what it was made of and on whether it has been closed, and on
nothing else that was done to it, or to the stores that it is a copy of or that are copies of it.
Its counter and its settings are those of its own past. -/
theorem answers_independent_of_history {base : VectorBatch} {metric : DistanceMetric}
    {idBase : UInt64} {steps otherSteps : List FleetStep} {stores otherStores : List TracedStore}
    (ran : run [{ store := { base := base, metric := metric, idBase := idBase }, past := [] }]
      steps = .ok stores)
    (otherRan : run [{ store := { base := base, metric := metric, idBase := idBase }, past := [] }]
      otherSteps = .ok otherStores) :
    (∀ one ∈ stores, ∀ other ∈ otherStores, (.closed ∈ one.past ↔ .closed ∈ other.past) →
      ∀ query like : Query, query.kind = like.kind → query.vector = like.vector →
        (one.store.submit query).1 = (other.store.submit like).1) ∧
      ∀ traced ∈ stores,
        traced.store.submitted = traced.past.countP StoreEvent.isAnswered ∧
        (∀ name, traced.store.setting? name = traced.lastApplied? name) ∧
        (.closed ∉ traced.past → ∀ query : Query, query.vector.length ≠ base.dimension →
          base.count ≠ 0 → ∃ detail, traced.store.submit query =
            (.error (.error { kind := .rejected, detail := detail }), traced.store)) ∧
        (.closed ∈ traced.past → ∀ query : Query, traced.store.submit query =
          (.error (.error { kind := .connection, detail := "store is closed" }),
            traced.store)) := by
  have fresh : GrownFrom { base := base, metric := metric, idBase := idBase }
      { store := { base := base, metric := metric, idBase := idBase }, past := [] } :=
    .start rfl rfl rfl
  have grown := GrownFrom.run (List.forall_mem_singleton.mpr fresh) ran
  have otherGrown := GrownFrom.run (List.forall_mem_singleton.mpr fresh) otherRan
  constructor
  · intro one member other otherMember sameEnd query like kind vector
    by_cases closed : .closed ∈ one.past
    · rw [(grown one member).submit_of_closed closed,
        (otherGrown other otherMember).submit_of_closed (sameEnd.mp closed)]
    · have otherOpen := fun ended => closed (sameEnd.mpr ended)
      rw [(grown one member).submit_of_open closed kind vector rfl,
        (otherGrown other otherMember).submit_of_open otherOpen rfl rfl rfl]
  · intro traced member
    have traits := grown traced member
    refine ⟨traits.submitted, traits.setting?_eq, ?_, traits.submit_of_closed⟩
    intro unclosed query wrong occupied
    rcases traced.store.submit_cases query with ⟨closed, _⟩ | ⟨_, _, refusal⟩ | ⟨_, fits, _⟩
    · exact absurd (traits.closed.mp closed) unclosed
    · exact ⟨_, refusal⟩
    · rw [traits.base] at fits
      exact absurd ⟨wrong, occupied⟩ fits

def oneOnLine : VectorBatch where
  count := 1
  dimension := 1
  components := [⟨0⟩]
  length_components := (Nat.mul_one 1).symm
  count_eq_zero := fun zero => absurd zero Nat.one_ne_zero

def nearZero (index : Nat) (strategy : ScanStrategy) : Query where
  index := index
  strategy := strategy
  kind := .range ⟨0x3f800000⟩
  vector := [⟨0⟩]

theorem used_store_answers_like_fresh :
    ∃ used copy : TracedStore,
      run [{ store := { base := oneOnLine, metric := .euclidean, idBase := 1 }, past := [] }]
        [.act 0 (.submit (nearZero 0 .indexScan)), .act 0 (.applySetting "a" "b"), .clone 0,
          .act 1 .close] = .ok [used, copy] ∧
      used.past = [.submitted (nearZero 0 .indexScan) (.ok [1]), .settingApplied "a" "b"] ∧
      (used.store.submit (nearZero 3 .indexScan)).1 =
        (MemoryStore.submit { base := oneOnLine, metric := .euclidean, idBase := 1 }
          (nearZero 0 .sequentialScan)).1 ∧
      used.store.submitted = 1 ∧ used.store.setting? "a" = some "b" ∧
      (∃ detail, used.store.submit { nearZero 0 .indexScan with vector := [] } =
        (.error (.error { kind := .rejected, detail := detail }), used.store)) ∧
      copy.store.submitted = 1 ∧ copy.store.submit (nearZero 3 .indexScan) =
        (.error (.error { kind := .connection, detail := "store is closed" }), copy.store) := by
  obtain ⟨used, copy, ran, past, copyPast⟩ : ∃ used copy : TracedStore,
      run [{ store := { base := oneOnLine, metric := .euclidean, idBase := 1 }, past := [] }]
        [.act 0 (.submit (nearZero 0 .indexScan)), .act 0 (.applySetting "a" "b"), .clone 0,
          .act 1 .close] = .ok [used, copy] ∧
      used.past = [.submitted (nearZero 0 .indexScan) (.ok [1]), .settingApplied "a" "b"] ∧
      copy.past = used.past ++ [.closed] :=
    ⟨_, _, rfl, rfl, rfl⟩
  rcases answers_independent_of_history ran (rfl : run _ [] = _) with ⟨same, facts⟩
  obtain ⟨submitted, settings, rejects, -⟩ := facts used (by simp)
  obtain ⟨copySubmitted, -, -, refuses⟩ := facts copy (by simp)
  refine ⟨used, copy, ran, past, ?_, ?_, ?_, ?_, ?_, ?_⟩
  · exact same used (by simp) _ (List.mem_singleton.mpr rfl) (by simp [past]) _ _ rfl rfl
  · rw [submitted, past]
    rfl
  · rw [settings, lastApplied?, past]
    rfl
  · exact rejects (by simp [past]) _ (by decide) (by decide)
  · rw [copySubmitted, copyPast, past]
    rfl
  · exact refuses (by simp [copyPast]) _

end TracedStore

end RangeRecall
