import RangeRecall.Proofs.Bytes.Device

/-! Decoders as trees. At each node a decoder asks its device for a number of bytes or for all that
are left, and goes on with what it gets. The reads that it makes on a device that never fails show
which positions it looks at. On every other device over the same bytes it comes to the same end,
unless the device fails at one of these positions; then the failure of the device is its answer. -/

namespace RangeRecall

/-- One read of a device: where it was made, and how many bytes it delivered. -/
structure Access where
  position : Nat
  delivered : Nat
deriving DecidableEq, Repr

/-- The last position that the read looked at. A read that delivers nothing has looked for the
end of the input where it was made. -/
def Access.last (access : Access) : Nat :=
  access.position + (access.delivered - 1)

def Reach (accesses : List Access) (position : Nat) : Prop :=
  ∃ access ∈ accesses, position ≤ access.last

instance (accesses : List Access) (position : Nat) : Decidable (Reach accesses position) :=
  inferInstanceAs (Decidable (∃ access ∈ accesses, position ≤ access.last))

@[simp] theorem reach_nil (position : Nat) : Reach [] position ↔ False := by
  simp [Reach]

@[simp] theorem reach_cons (access : Access) (rest : List Access) (position : Nat) :
    Reach (access :: rest) position ↔ position ≤ access.last ∨ Reach rest position := by
  simp [Reach]

@[simp] theorem reach_append (first second : List Access) (position : Nat) :
    Reach (first ++ second) position ↔ Reach first position ∨ Reach second position := by
  simp [Reach, or_and_right, exists_or]

structure Traced (α : Type) where
  result : α
  accesses : List Access

namespace Source

/-! ## The accesses of long reads -/

def observeExactly (source : Source) (wanted : Nat) :
    Traced (Except DeviceError (List UInt8 × Source)) :=
  let access (count : Nat) : Access := { position := source.position, delivered := count }
  if wanted = 0 then { result := .ok ([], source), accesses := [] }
  else if source.fails then { result := .error source.failure, accesses := [access 0] }
  else
    let count := source.delivery wanted
    if count = 0 then { result := .error .endOfInput, accesses := [access 0] }
    else
      let later := (source.advance count).observeExactly (wanted - count)
      { result :=
          match later.result with
          | .error error => .error error
          | .ok (rest, remaining) => .ok (source.ahead.take count ++ rest, remaining)
        accesses := access count :: later.accesses }
termination_by wanted
decreasing_by omega

def observeToEnd (source : Source) : Traced (Except DeviceError (List UInt8 × Source)) :=
  let access (count : Nat) : Access := { position := source.position, delivered := count }
  if source.fails then { result := .error source.failure, accesses := [access 0] }
  else
    let count := source.delivery source.ahead.length
    if count = 0 then { result := .ok ([], source), accesses := [access 0] }
    else
      let later := (source.advance count).observeToEnd
      { result :=
          match later.result with
          | .error error => .error error
          | .ok (rest, remaining) => .ok (source.ahead.take count ++ rest, remaining)
        accesses := access count :: later.accesses }
termination_by source.ahead.length
decreasing_by
  have := source.delivery_le source.ahead.length
  simp only [advance, List.length_drop]
  omega

@[simp] theorem result_observeExactly (source : Source) (wanted : Nat) :
    (source.observeExactly wanted).result = source.readExactly wanted := by
  induction wanted using Nat.strongRecOn generalizing source with
  | ind wanted induction =>
      rw [observeExactly, readExactly]
      dsimp only
      split
      · rfl
      · split
        · rfl
        · split
          · rfl
          · have later := induction (wanted - source.delivery wanted) (by omega)
              (source.advance (source.delivery wanted))
            exact later ▸ rfl

@[simp] theorem result_observeToEnd (source : Source) :
    source.observeToEnd.result = source.readToEnd := by
  induction size : source.ahead.length using Nat.strongRecOn generalizing source with
  | ind length induction =>
      rw [observeToEnd, readToEnd]
      dsimp only
      split
      · rfl
      · split
        · rfl
        · have bounded := source.delivery_le_ahead source.ahead.length
          have smaller : (source.advance (source.delivery source.ahead.length)).ahead.length <
              length := by
            rw [ahead_advance, List.length_drop]
            omega
          exact induction _ smaller _ rfl ▸ rfl

variable {source steady : Source}

theorem reach_observeExactly (reliable : steady.Reliable) (wanted limit : Nat) :
    Reach (steady.observeExactly wanted).accesses limit ↔
      0 < wanted ∧ limit < steady.position + min wanted (steady.ahead.length + 1) := by
  induction wanted using Nat.strongRecOn generalizing steady with
  | ind wanted induction =>
      rw [observeExactly]
      dsimp only
      by_cases nothing : wanted = 0
      · simp [nothing]
      · rw [if_neg nothing, reliable.fails_eq_false, if_neg Bool.false_ne_true]
        by_cases empty : steady.delivery wanted = 0
        · have atEnd : steady.ahead.length = 0 :=
            ((delivery_eq_zero_iff reliable.delivers reliable.fails_eq_false).mp
              empty).resolve_left nothing
          rw [if_pos empty]
          simp only [reach_cons, reach_nil, or_false, Access.last]
          omega
        · have within := steady.delivery_le wanted
          have bounded := steady.delivery_le_ahead wanted
          have later := induction (wanted - steady.delivery wanted) (by omega)
            (reliable.advance (steady.delivery wanted))
          rw [if_neg empty, reach_cons, later, ahead_advance, List.length_drop]
          simp only [Access.last, advance]
          omega

theorem reach_observeToEnd (reliable : steady.Reliable) (limit : Nat) :
    Reach steady.observeToEnd.accesses limit ↔
      limit < steady.position + (steady.ahead.length + 1) := by
  induction size : steady.ahead.length using Nat.strongRecOn generalizing steady with
  | ind length induction =>
      rw [observeToEnd, reliable.fails_eq_false, if_neg Bool.false_ne_true]
      dsimp only
      rw [size]
      by_cases empty : steady.delivery length = 0
      · have atEnd : length = 0 := by
          have cases := (delivery_eq_zero_iff reliable.delivers reliable.fails_eq_false).mp empty
          omega
        rw [if_pos empty]
        simp only [reach_cons, reach_nil, or_false, Access.last]
        omega
      · have bounded := steady.delivery_le_ahead length
        have restSize : (steady.advance (steady.delivery length)).ahead.length =
            length - steady.delivery length := by
          rw [ahead_advance, List.length_drop, size]
        have later := induction (length - steady.delivery length) (by omega)
          (reliable.advance (steady.delivery length)) restSize
        rw [if_neg empty, reach_cons, later]
        simp only [Access.last, advance]
        omega

def Small (accesses : List Access) (size : Nat) : Prop :=
  ∀ access ∈ accesses, access.delivered ≤ size

theorem delivery_le_piece {piece : Nat} (size : source.piece = some piece) (wanted : Nat) :
    source.delivery wanted ≤ piece := by
  unfold delivery
  rw [size]
  cases source.failsAt <;> dsimp only <;> omega

theorem small_observeExactly {piece : Nat} (size : source.piece = some piece) (wanted : Nat) :
    Small (source.observeExactly wanted).accesses piece := by
  induction wanted using Nat.strongRecOn generalizing source with
  | ind wanted induction =>
      rw [observeExactly]
      dsimp only
      split
      · simp [Small]
      · split
        · simp [Small]
        · split
          · simp [Small]
          · exact List.forall_mem_cons.mpr
              ⟨delivery_le_piece size wanted, induction _ (by omega) size⟩

theorem small_observeToEnd {piece : Nat} (size : source.piece = some piece) :
    Small source.observeToEnd.accesses piece := by
  induction left : source.ahead.length using Nat.strongRecOn generalizing source with
  | ind length induction =>
      rw [observeToEnd]
      dsimp only
      split
      · simp [Small]
      · split
        · simp [Small]
        · have bounded := source.delivery_le_ahead source.ahead.length
          have smaller : (source.advance (source.delivery source.ahead.length)).ahead.length <
              length := by
            rw [ahead_advance, List.length_drop]
            omega
          exact List.forall_mem_cons.mpr
            ⟨delivery_le_piece size _, induction _ smaller size rfl⟩

/-! ## Two devices over the same bytes -/

/-- The second device has the bytes of the first one ahead, at the same position, and never
fails. -/
structure SteadiedBy (source steady : Source) : Prop where
  delivers : source.piece ≠ some 0
  reliable : steady.Reliable
  ahead : steady.ahead = source.ahead
  position : steady.position = source.position

/-- The device fails at a position that one of the accesses looks at, or before it. -/
def Interrupts (source : Source) (accesses : List Access) : Prop :=
  ∃ limit, source.failsAt = some limit ∧ Reach accesses limit

@[simp] theorem interrupts_nil (source : Source) : source.Interrupts [] ↔ False := by
  simp [Interrupts]

@[simp] theorem interrupts_append (source : Source) (first second : List Access) :
    source.Interrupts (first ++ second) ↔ source.Interrupts first ∨ source.Interrupts second := by
  simp [Interrupts, and_or_left, exists_or]

@[simp] theorem interrupts_advance (source : Source) (count : Nat) (accesses : List Access) :
    (source.advance count).Interrupts accesses ↔ source.Interrupts accesses :=
  Iff.rfl

namespace SteadiedBy

theorem advance (steadied : source.SteadiedBy steady) (count : Nat) :
    (source.advance count).SteadiedBy (steady.advance count) where
  delivers := steadied.delivers
  reliable := steadied.reliable.advance count
  ahead := by rw [ahead_advance, ahead_advance, steadied.ahead]
  position := congrArg (· + count) steadied.position

theorem interrupts_exactly (steadied : source.SteadiedBy steady) (wanted : Nat) :
    source.Interrupts (steady.observeExactly wanted).accesses ↔
      source.failsWithin (min wanted (source.ahead.length + 1)) = true := by
  simp only [Interrupts, reach_observeExactly steadied.reliable, failsWithin_eq_true,
    steadied.ahead, steadied.position]
  refine exists_congr fun limit => and_congr_right fun _ => ?_
  omega

theorem interrupts_toEnd (steadied : source.SteadiedBy steady) :
    source.Interrupts steady.observeToEnd.accesses ↔
      source.failsWithin (source.ahead.length + 1) = true := by
  simp only [Interrupts, reach_observeToEnd steadied.reliable, failsWithin_eq_true,
    steadied.ahead, steadied.position]
  refine exists_congr fun limit => and_congr_right fun _ => ?_
  omega

end SteadiedBy

end Source

/-! ## Decoders -/

/-- A decoder by what it asks its device for: a number of bytes, with the error for an input that
ends before, or all bytes that are left. -/
inductive Decoder (α : Type) where
  | done (value : α)
  | fail (error : Error)
  | exactly (count : Nat) (short : Error) (next : List UInt8 → Decoder α)
  | toEnd (next : List UInt8 → Decoder α)

namespace Decoder

def bind : Decoder α → (α → Decoder β) → Decoder β
  | done value, onward => onward value
  | fail error, _ => fail error
  | exactly count short next, onward =>
      exactly count short fun bytes => (next bytes).bind onward
  | toEnd next, onward => toEnd fun bytes => (next bytes).bind onward

instance : Monad Decoder where
  pure := done
  bind := bind

def ofResult : Except Error α → Decoder α
  | .ok value => done value
  | .error error => fail error

def observe : Decoder α → Source → Traced (Except Error (α × Source))
  | done value, source => { result := .ok (value, source), accesses := [] }
  | fail error, _ => { result := .error error, accesses := [] }
  | exactly count short next, source =>
      let asked := source.observeExactly count
      match asked.result with
      | .error error => { result := .error (error.report short), accesses := asked.accesses }
      | .ok (bytes, rest) =>
          let later := (next bytes).observe rest
          { result := later.result, accesses := asked.accesses ++ later.accesses }
  | toEnd next, source =>
      let asked := source.observeToEnd
      match asked.result with
      | .error error => { result := .error (.device error), accesses := asked.accesses }
      | .ok (bytes, rest) =>
          let later := (next bytes).observe rest
          { result := later.result, accesses := asked.accesses ++ later.accesses }

def run (decoder : Decoder α) (source : Source) : Except Error (α × Source) :=
  (decoder.observe source).result

variable {source steady : Source}

theorem run_ofResult (result : Except Error α) (source : Source) :
    (ofResult result).run source = (do
      let value ← result
      return (value, source)) := by
  cases result <;> rfl

theorem run_exactly (count : Nat) (short : Error) (next : List UInt8 → Decoder α)
    (source : Source) :
    (exactly count short next).run source =
      match source.readExactly count with
      | .error error => .error (error.report short)
      | .ok (bytes, rest) => (next bytes).run rest := by
  simp only [run, observe, Source.result_observeExactly]
  split <;> rfl

theorem run_toEnd (next : List UInt8 → Decoder α) (source : Source) :
    (toEnd next).run source =
      match source.readToEnd with
      | .error error => .error (.device error)
      | .ok (bytes, rest) => (next bytes).run rest := by
  simp only [run, observe, Source.result_observeToEnd]
  split <;> rfl

theorem run_bind (first : Decoder α) (second : α → Decoder β) (source : Source) :
    (first >>= second).run source =
      first.run source >>= fun reply => (second reply.1).run reply.2 := by
  change (first.bind second).run source = _
  induction first generalizing source with
  | done value => rfl
  | fail error => rfl
  | exactly count short next induction =>
      rw [bind, run_exactly, run_exactly]
      rcases source.readExactly count with _ | ⟨bytes, rest⟩
      · rfl
      · exact induction bytes rest
  | toEnd next induction =>
      rw [bind, run_toEnd, run_toEnd]
      rcases source.readToEnd with _ | ⟨bytes, rest⟩
      · rfl
      · exact induction bytes rest

theorem small_observe {decoder : Decoder α} (reliable : steady.Reliable) {piece : Nat}
    (size : steady.piece = some piece) : Source.Small (decoder.observe steady).accesses piece := by
  induction decoder generalizing steady with
  | done value => simp [observe, Source.Small]
  | fail error => simp [observe, Source.Small]
  | exactly count short next induction =>
      have here := Source.small_observeExactly size count
      rw [observe, Source.result_observeExactly, reliable.readExactly_eq]
      by_cases enough : count ≤ steady.ahead.length
      · rw [if_pos enough]
        have later := induction (steady.ahead.take count) (reliable.advance count) size
        exact List.forall_mem_append.mpr ⟨here, later⟩
      · rw [if_neg enough]
        exact here
  | toEnd next induction =>
      have later := induction steady.ahead (reliable.advance steady.ahead.length) size
      rw [observe, Source.result_observeToEnd, reliable.readToEnd_eq]
      exact List.forall_mem_append.mpr ⟨Source.small_observeToEnd size, later⟩

/-! ## Decoders on devices that fail -/

def Agrees (reply : Except Error (α × Source)) (source : Source)
    (steadyReply : Except Error (α × Source)) (steady : Source) : Prop :=
  (∃ error, reply = .error error ∧ steadyReply = .error error) ∨
    ∃ value count, reply = .ok (value, source.advance count) ∧
      steadyReply = .ok (value, steady.advance count)

theorem Agrees.of_advance {reply steadyReply : Except Error (α × Source)} {count : Nat}
    (agrees : Agrees reply (source.advance count) steadyReply (steady.advance count)) :
    Agrees reply source steadyReply steady := by
  rcases agrees with same | ⟨value, further, read, steadyRead⟩
  · exact .inl same
  · rw [Source.advance_advance] at read steadyRead
    exact .inr ⟨value, count + further, read, steadyRead⟩

@[simp] theorem accesses_ofResult (result : Except Error α) (source : Source) :
    ((ofResult result).observe source).accesses = [] := by
  cases result <;> rfl

theorem run_toEnd_of_interrupts {next : List UInt8 → Decoder α}
    (steadied : source.SteadiedBy steady)
    (interrupted : source.Interrupts steady.observeToEnd.accesses) :
    (toEnd next).run source = .error (.device source.failure) := by
  rw [run_toEnd, Source.readToEnd_eq steadied.delivers,
    if_pos (steadied.interrupts_toEnd.mp interrupted)]

/-- The first failure of the device that a decoder meets is its answer, unless the device says that
its input has ended. There is no value then either. -/
theorem run_of_interrupts {decoder : Decoder α} (steadied : source.SteadiedBy steady)
    (interrupted : source.Interrupts (decoder.observe steady).accesses) :
    ∃ error, decoder.run source = .error error ∧
      (error = .device source.failure ∨ source.failure.kind = .unexpectedEof) := by
  induction decoder generalizing source steady with
  | done value => simp [observe] at interrupted
  | fail error => simp [observe] at interrupted
  | exactly count short next induction =>
      rw [run_exactly, Source.readExactly_eq steadied.delivers]
      by_cases fails : source.failsWithin (min count (source.ahead.length + 1)) = true
      · rw [if_pos fails]
        refine ⟨_, rfl, ?_⟩
        by_cases atEnd : source.failure.kind = .unexpectedEof
        · exact .inr atEnd
        · exact .inl (Source.report_of_failure atEnd short)
      · have reached := steadied.interrupts_exactly count
        rw [if_neg fails]
        rw [observe, Source.result_observeExactly, steadied.reliable.readExactly_eq,
          steadied.ahead] at interrupted
        by_cases enough : count ≤ source.ahead.length
        · rw [if_pos enough] at interrupted ⊢
          refine induction _ (steadied.advance count) ?_
          simpa [reached, fails] using interrupted
        · -- No decoder follows a request that the input is too short for.
          rw [if_neg enough] at interrupted
          exact absurd (reached.mp interrupted) fails
  | toEnd next induction =>
      by_cases here : source.Interrupts steady.observeToEnd.accesses
      · exact ⟨_, run_toEnd_of_interrupts steadied here, .inl rfl⟩
      · rw [run_toEnd, Source.readToEnd_eq steadied.delivers,
          if_neg (mt steadied.interrupts_toEnd.mpr here)]
        rw [observe, Source.result_observeToEnd, steadied.reliable.readToEnd_eq,
          steadied.ahead] at interrupted
        refine induction _ (steadied.advance source.ahead.length) ?_
        simpa [here] using interrupted

theorem agrees_of_not_interrupts {decoder : Decoder α} (steadied : source.SteadiedBy steady)
    (uninterrupted : ¬source.Interrupts (decoder.observe steady).accesses) :
    Agrees (decoder.run source) source (decoder.run steady) steady := by
  induction decoder generalizing source steady with
  | done value => exact .inr ⟨value, 0, rfl, rfl⟩
  | fail error => exact .inl ⟨error, rfl, rfl⟩
  | exactly count short next induction =>
      have reached := steadied.interrupts_exactly count
      rw [observe, Source.result_observeExactly, steadied.reliable.readExactly_eq,
        steadied.ahead] at uninterrupted
      rw [run_exactly, run_exactly, Source.readExactly_eq steadied.delivers,
        steadied.reliable.readExactly_eq, steadied.ahead]
      by_cases enough : count ≤ source.ahead.length
      · rw [if_pos enough] at uninterrupted
        simp only [Source.interrupts_append, not_or] at uninterrupted
        have works := fun fails => uninterrupted.1 (reached.mpr fails)
        rw [if_neg works, if_pos enough, if_pos enough]
        exact .of_advance (induction _ (steadied.advance count) uninterrupted.2)
      · rw [if_neg enough] at uninterrupted
        have works := fun fails => uninterrupted (reached.mpr fails)
        rw [if_neg works, if_neg enough, if_neg enough]
        exact .inl ⟨short, rfl, rfl⟩
  | toEnd next induction =>
      have reached := steadied.interrupts_toEnd
      rw [observe, Source.result_observeToEnd, steadied.reliable.readToEnd_eq,
        steadied.ahead] at uninterrupted
      simp only [Source.interrupts_append, not_or] at uninterrupted
      have works := fun fails => uninterrupted.1 (reached.mpr fails)
      rw [run_toEnd, run_toEnd, Source.readToEnd_eq steadied.delivers,
        steadied.reliable.readToEnd_eq, steadied.ahead, if_neg works]
      exact .of_advance (induction _ (steadied.advance source.ahead.length) uninterrupted.2)

/-! ## Decoders on devices that report an end as their failure -/

def AsksForCounts : Decoder α → Prop
  | done _ => True
  | fail _ => True
  | exactly _ _ next => ∀ bytes, (next bytes).AsksForCounts
  | toEnd _ => False

theorem AsksForCounts.bind {first : Decoder α} {second : α → Decoder β}
    (asks : first.AsksForCounts) (later : ∀ value, (second value).AsksForCounts) :
    (first >>= second).AsksForCounts := by
  change (first.bind second).AsksForCounts
  induction first with
  | done value => exact later value
  | fail error => trivial
  | exactly count short next induction => exact fun bytes => induction bytes (asks bytes)
  | toEnd next => exact asks.elim

theorem asksForCounts_ofResult (result : Except Error α) : (ofResult result).AsksForCounts := by
  cases result <;> trivial

theorem run_of_reported_end {decoder : Decoder α} (asks : decoder.AsksForCounts)
    (delivers : source.piece ≠ some 0) {limit : Nat} (fails : source.failsAt = some limit)
    (atEnd : source.failure.kind = .unexpectedEof) :
    Agrees (decoder.run source) source (decoder.run (source.endingAt limit))
      (source.endingAt limit) := by
  induction decoder generalizing source with
  | done value => exact .inr ⟨value, 0, rfl, rfl⟩
  | fail error => exact .inl ⟨error, rfl, rfl⟩
  | exactly count short next induction =>
      rw [run_exactly, run_exactly, Source.readExactly_eq delivers,
        (Source.endingAt_reliable delivers limit).readExactly_eq]
      have ahead : (source.endingAt limit).ahead.length =
          min (limit - source.position) source.ahead.length := List.length_take
      have interrupted := @Source.failsWithin_iff _ _ fails
        (min count (source.ahead.length + 1))
      -- Unless the failure cuts the request short, both devices have the same bytes for it.
      by_cases here : source.failsWithin (min count (source.ahead.length + 1)) = true
      · have missing : ¬count ≤ (source.endingAt limit).ahead.length := by
          have := interrupted.mp here
          omega
        rw [if_pos here, if_neg missing]
        exact .inl ⟨short, congrArg Except.error (Source.report_of_end atEnd short), rfl⟩
      · have within := mt interrupted.mpr here
        rw [if_neg here]
        by_cases enough : count ≤ source.ahead.length
        · have enoughThere : count ≤ (source.endingAt limit).ahead.length := by omega
          have taken : (source.endingAt limit).ahead.take count = source.ahead.take count := by
            rw [Source.endingAt, List.take_take, Nat.min_eq_left (by omega)]
          have later := @induction (source.ahead.take count) (source.advance count) (asks _)
            delivers fails atEnd
          rw [Source.endingAt_advance] at later
          rw [if_pos enough, if_pos enoughThere, taken]
          exact later.of_advance
        · have missing : ¬count ≤ (source.endingAt limit).ahead.length := by omega
          rw [if_neg enough, if_neg missing]
          exact .inl ⟨short, rfl, rfl⟩
  | toEnd next => exact asks.elim

end Decoder

end RangeRecall
