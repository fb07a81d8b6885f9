import RangeRecall.Proofs.Grade.Finite
import RangeRecall.Proofs.Numeric.RoundedArithmetic

/-! Recall as a number between zero and one. Every partial sum of recalls is rounded, but a rounding
that keeps the integers cannot carry a sum of so many recalls beyond their number. -/

namespace RangeRecall

open RoundedArithmetic (Between)

section

variable {α : Type} [RealArithmetic α] [RoundedArithmetic α] {low high : Nat} {values : List α}

/-! ## Means -/

namespace Statistics

/-- The sum of `count` values between two integers stays between their multiples while more such
values are added: each addition is rounded, but not beyond the next multiple. -/
theorem foldl_add_between {start : α} {count : Nat}
    (begun : Between (low * count) (high * count) start)
    (each : ∀ value ∈ values, Between low high value)
    (small : high * (count + values.length) ≤ 2 ^ 53) :
    Between (low * (count + values.length)) (high * (count + values.length))
      (values.foldl RealArithmetic.add start) := by
  induction values generalizing start count with
  | nil => exact begun
  | cons first rest induction =>
      have parts := List.forall_mem_cons.mp each
      rw [List.length_cons, ← Nat.succ_add_eq_add_succ] at small ⊢
      have next : high * count + high ≤ 2 ^ 53 := by
        rw [← Nat.mul_succ]
        exact (Nat.mul_le_mul_left high (Nat.le_add_right _ _)).trans small
      exact induction (begun.add parts.1 next) parts.2 small

theorem total_between (each : ∀ value ∈ values, Between low high value)
    (small : high * values.length ≤ 2 ^ 53) :
    Between (low * values.length) (high * values.length) (total values) := by
  cases values with
  | nil => exact .ofNat (Nat.zero_le _)
  | cons first rest =>
      have parts := List.forall_mem_cons.mp each
      have begun : Between (low * 1) (high * 1) first := by
        rw [Nat.mul_one, Nat.mul_one]
        exact parts.1
      rw [List.length_cons, Nat.add_comm] at small ⊢
      exact foldl_add_between begun parts.2 small

theorem mean_between (each : ∀ value ∈ values, Between low high value) (some : values ≠ [])
    (unit : high ≤ 1) (few : values.length ≤ 2 ^ 53) : Between low high (mean values) := by
  have small : high * values.length ≤ 2 ^ 53 :=
    ((Nat.mul_le_mul_right _ unit).trans (Nat.one_mul _).le).trans few
  have nonzero : values.length ≠ 0 := fun empty => some (List.eq_nil_of_length_eq_zero empty)
  exact (total_between each small).divide (.ofNat few) nonzero (unit.trans (by decide))

end Statistics

namespace Recall

theorem one_between (low_le : low ≤ 1) (high_eq : high = 1) :
    Between low high (RealArithmetic.ofNat 1 : α) :=
  (Between.ofNat (by decide)).mono low_le high_eq.ge

theorem share_between {found total : Nat} (least : low * total ≤ found)
    (greatest : found ≤ high * total) (unit : high ≤ 1) (few : total ≤ 2 ^ 53)
    (none : total = 0 → low ≤ 1 ∧ high = 1) : Between low high (share found total : α) := by
  rw [share]
  split
  · rename_i zero
    exact one_between (none zero).1 (none zero).2
  · rename_i some
    have bounded : found ≤ total :=
      greatest.trans ((Nat.mul_le_mul_right total unit).trans (Nat.one_mul total).le)
    have dividend : Between found found (RealArithmetic.ofNat found : α) :=
      .ofNat (bounded.trans few)
    exact (dividend.mono least greatest).divide (.ofNat few) some (unit.trans (by decide))

theorem aggregate_between (each : ∀ value ∈ values, Between low high value) (unit : high ≤ 1)
    (few : values.length ≤ 2 ^ 53) (none : values = [] → low ≤ 1 ∧ high = 1) :
    Between low high (aggregate values) := by
  rw [aggregate]
  split
  · rename_i empty
    have bounds := none (List.isEmpty_iff.mp empty)
    exact one_between bounds.1 bounds.2
  · rename_i some
    exact Statistics.mean_between each (fun empty => some (List.isEmpty_iff.mpr empty)) unit few

end Recall

end

/-! ## Counts -/

theorem GroundTruth.distinctNeighbors_le (truth : GroundTruth) (query : Nat) :
    truth.distinctNeighbors query ≤ 2 ^ 53 := by
  rcases row : truth.neighbors query with _ | neighbors
  · rw [distinctNeighbors, row]
    exact Nat.zero_le _
  · rw [distinctNeighbors_of_row row]
    have few := RecallEvaluator.neighbors_lt row
    exact ((List.toFinset_card_le neighbors).trans few.le).trans (by decide)

namespace RecallEvaluator

variable {evaluator : RecallEvaluator} {run : ExecutionRun}

def ReturnsAll (evaluator : RecallEvaluator) (run : ExecutionRun) : Prop :=
  ∀ record ∈ run.records, ∀ neighbors,
    evaluator.groundTruth.neighbors record.index = .ok neighbors →
      ∀ neighbor ∈ neighbors, evaluator.idOffset.Returns record.resultIds neighbor

def ReturnsNone (evaluator : RecallEvaluator) (run : ExecutionRun) : Prop :=
  ∀ record ∈ run.records, ∀ neighbors,
    evaluator.groundTruth.neighbors record.index = .ok neighbors →
      neighbors ≠ [] ∧
        ∀ neighbor ∈ neighbors, ¬evaluator.idOffset.Returns record.resultIds neighbor

instance {result : Except ε α} {holds : α → Prop} [DecidablePred holds] :
    Decidable (∀ value, result = .ok value → holds value) :=
  match result with
  | .error _ => isTrue nofun
  | .ok value => decidable_of_iff (holds value)
      ⟨fun held _ same => Except.ok.inj same ▸ held, fun held => held value rfl⟩

-- Without these two, all words would be looked through for the neighbors.
instance (offset : IdOffset) (returned : List UInt64) (neighbors : List UInt32) :
    Decidable (∀ neighbor ∈ neighbors, offset.Returns returned neighbor) :=
  List.decidableBAll _ neighbors

instance (offset : IdOffset) (returned : List UInt64) (neighbors : List UInt32) :
    Decidable (∀ neighbor ∈ neighbors, ¬offset.Returns returned neighbor) :=
  List.decidableBAll _ neighbors

instance (evaluator : RecallEvaluator) (run : ExecutionRun) :
    Decidable (evaluator.ReturnsAll run) :=
  inferInstanceAs (Decidable (∀ record ∈ run.records, _))

instance (evaluator : RecallEvaluator) (run : ExecutionRun) :
    Decidable (evaluator.ReturnsNone run) :=
  inferInstanceAs (Decidable (∀ record ∈ run.records, _))

theorem ReturnsAll.hitCount_eq (all : evaluator.ReturnsAll run) {record : ExecutionRecord}
    (member : record ∈ run.records) :
    evaluator.hitCount record = evaluator.groundTruth.distinctNeighbors record.index := by
  rcases row : evaluator.groundTruth.neighbors record.index with _ | neighbors
  · rw [hitCount, GroundTruth.distinctNeighbors, row]
  · rw [hitCount_of_row row, GroundTruth.distinctNeighbors_of_row row]
    refine congrArg Finset.card (Finset.filter_true_of_mem fun neighbor inside => ?_)
    exact all record member neighbors row neighbor (List.mem_toFinset.mp inside)

theorem ReturnsNone.hitCount_eq (none : evaluator.ReturnsNone run) {record : ExecutionRecord}
    (member : record ∈ run.records) : evaluator.hitCount record = 0 := by
  rcases row : evaluator.groundTruth.neighbors record.index with _ | neighbors
  · rw [hitCount, row]
  · rw [hitCount_of_row row, Finset.card_eq_zero, IdOffset.hits, Finset.filter_eq_empty_iff]
    intro neighbor inside
    exact (none record member neighbors row).2 neighbor (List.mem_toFinset.mp inside)

theorem ReturnsNone.distinctNeighbors_ne (none : evaluator.ReturnsNone run)
    (complete : run.records.length = evaluator.groundTruth.queryCount) (ordered : run.InOrder)
    {record : ExecutionRecord} (member : record ∈ run.records) :
    evaluator.groundTruth.distinctNeighbors record.index ≠ 0 := by
  obtain ⟨neighbors, row⟩ := exists_row complete ordered member
  rw [GroundTruth.distinctNeighbors_of_row row, Finset.card_ne_zero, List.toFinset_nonempty_iff]
  exact (none record member neighbors row).1

/-! ## Grades -/

section

variable {α : Type} [RealArithmetic α] [RoundedArithmetic α]

theorem shareOf_between (evaluator : RecallEvaluator) (record : ExecutionRecord) :
    Between 0 1 (evaluator.shareOf record : α) := by
  refine Recall.share_between ?_ ?_ le_rfl (evaluator.groundTruth.distinctNeighbors_le _)
    fun _ => ⟨Nat.zero_le _, rfl⟩
  · rw [Nat.zero_mul]
    exact Nat.zero_le _
  · rw [Nat.one_mul]
    exact evaluator.hitCount_le record

theorem ReturnsAll.shareOf_between (all : evaluator.ReturnsAll run) {record : ExecutionRecord}
    (member : record ∈ run.records) : Between 1 1 (evaluator.shareOf record : α) := by
  have counts := all.hitCount_eq member
  refine Recall.share_between ?_ ?_ le_rfl (evaluator.groundTruth.distinctNeighbors_le _)
    fun _ => ⟨le_rfl, rfl⟩
  · rw [Nat.one_mul, counts]
  · rw [Nat.one_mul, counts]

theorem ReturnsNone.shareOf_between (none : evaluator.ReturnsNone run)
    (complete : run.records.length = evaluator.groundTruth.queryCount) (ordered : run.InOrder)
    {record : ExecutionRecord} (member : record ∈ run.records) :
    Between 0 0 (evaluator.shareOf record : α) := by
  have count := none.hitCount_eq member
  refine Recall.share_between ?_ ?_ (Nat.zero_le _) (evaluator.groundTruth.distinctNeighbors_le _)
    fun empty => absurd empty (none.distinctNeighbors_ne complete ordered member)
  · rw [Nat.zero_mul]
    exact Nat.zero_le _
  · rw [Nat.zero_mul, count]

theorem aggregate_shareOf_between {low high : Nat}
    (each : ∀ record ∈ run.records, Between low high (evaluator.shareOf record : α))
    (unit : high ≤ 1) (few : run.records.length < 2 ^ 53)
    (none : run.records = [] → low ≤ 1 ∧ high = 1) :
    Between low high (Recall.aggregate (run.records.map (evaluator.shareOf (α := α)))) := by
  refine Recall.aggregate_between ?_ unit ?_ fun empty => none (List.map_eq_nil_iff.mp empty)
  · intro share member
    obtain ⟨record, inside, rfl⟩ := List.mem_map.mp member
    exact each record inside
  · rw [List.length_map]
    exact few.le

end

theorem graded_between {α : Type} [RealArithmetic α] [RoundedArithmetic α]
    (fits : evaluator.ShiftsFit)
    (complete : run.records.length = evaluator.groundTruth.queryCount) (ordered : run.InOrder)
    (few : run.records.length < 2 ^ 53) :
    ∃ recalls : List α, evaluator.recalls run.records = .ok recalls ∧
      recalls.length = evaluator.groundTruth.queryCount ∧
      (∀ share ∈ recalls, Between 0 1 share) ∧ Between 0 1 (Recall.aggregate recalls) ∧
      (evaluator.ReturnsAll run → Between 1 1 (Recall.aggregate recalls)) ∧
      (run.records ≠ [] → evaluator.ReturnsNone run → Between 0 0 (Recall.aggregate recalls)) := by
  refine ⟨_, recalls_of_aligned fits complete ordered, ?_, ?_, ?_, ?_, ?_⟩
  · rw [List.length_map, complete]
  · intro share member
    obtain ⟨record, -, rfl⟩ := List.mem_map.mp member
    exact evaluator.shareOf_between record
  · exact aggregate_shareOf_between (fun record _ => evaluator.shareOf_between record) le_rfl few
      fun _ => ⟨Nat.zero_le _, rfl⟩
  · intro all
    exact aggregate_shareOf_between (fun _ => all.shareOf_between) le_rfl few fun _ => ⟨le_rfl, rfl⟩
  · intro some none
    exact aggregate_shareOf_between (fun _ => none.shareOf_between complete ordered)
      (Nat.zero_le _) few fun empty => absurd empty some

/-- Recall stays between zero and one. However the results of arithmetic are rounded, as long as
order is kept and so are the integers that a double holds, the recalls of a run and their mean are
not less than zero and not greater than one. The mean is exactly one if every neighbor of every
query is returned, and exactly zero if there are queries, all of them have neighbors and none is
returned. The doubles of a report are one such arithmetic. -/
theorem recall_in_unit_interval (evaluator : RecallEvaluator) (run : ExecutionRun)
    (fits : ∀ neighbor ∈ evaluator.groundTruth.neighborIds,
      (neighbor.toNat : Int) + evaluator.idOffset.shift.toInt < signedLimit)
    (complete : run.records.length = evaluator.groundTruth.queryCount) (ordered : run.InOrder)
    (few : run.records.length < 2 ^ 53) :
    (∀ rounding : Rounding, ∃ recalls : List (Rounded rounding),
      evaluator.recalls run.records = .ok recalls ∧
      recalls.length = evaluator.groundTruth.queryCount ∧
      (∀ share ∈ recalls, 0 ≤ share.value ∧ share.value ≤ 1) ∧
      0 ≤ (Recall.aggregate recalls).value ∧ (Recall.aggregate recalls).value ≤ 1 ∧
      (evaluator.ReturnsAll run → (Recall.aggregate recalls).value = 1) ∧
      (run.records ≠ [] → evaluator.ReturnsNone run → (Recall.aggregate recalls).value = 0)) ∧
    ∃ (recalls : List Binary64) (report : RecallReport),
      evaluator.recalls run.records = .ok recalls ∧ evaluator.evaluate run = .ok report ∧
      recalls.length = evaluator.groundTruth.queryCount ∧
      (∀ share ∈ recalls, share.IsMeasure ∧ share.magnitude ≤ 1) ∧
      report.aggregateRecall.IsMeasure ∧ report.aggregateRecall.magnitude ≤ 1 ∧
      (evaluator.ReturnsAll run → report.aggregateRecall = .one) ∧
      (run.records ≠ [] → evaluator.ReturnsNone run → report.aggregateRecall = .zero) := by
  have shiftsFit := shiftsFit_of_neighborIds fits
  constructor
  · intro rounding
    obtain ⟨recalls, graded, length, each, aggregate, all, none⟩ :=
      @graded_between _ _ (Rounded rounding) _ _ shiftsFit complete ordered few
    have bounds {number : Rounded rounding} (between : Between 0 1 number) :
        0 ≤ number.value ∧ number.value ≤ 1 :=
      ⟨between.measure, between.le_high.trans_eq Nat.cast_one⟩
    exact ⟨recalls, graded, length, fun share member => bounds (each share member),
      (bounds aggregate).1, (bounds aggregate).2,
      fun returned => (all returned).value_eq.trans Nat.cast_one,
      fun some returned => (none some returned).value_eq.trans Nat.cast_zero⟩
  · obtain ⟨recalls, graded, length, each, aggregate, all, none⟩ :=
      @graded_between _ _ Binary64 _ _ shiftsFit complete ordered few
    have le_one {number : Binary64} (between : Between 0 1 number) : number.magnitude ≤ 1 :=
      between.le_high.trans_eq Nat.cast_one
    refine ⟨recalls, _, graded, evaluate_eq_ok graded, length,
      fun share member => ⟨(each share member).measure, le_one (each share member)⟩,
      aggregate.measure, le_one aggregate, fun returned => ?_, fun some returned => ?_⟩
    · exact Binary64.magnitude_injective ((all returned).value_eq.trans Binary64.magnitude_one.symm)
    · exact Binary64.magnitude_injective
        ((none some returned).value_eq.trans Binary64.magnitude_zero.symm)

def sevensAndNine : RecallEvaluator where
  groundTruth := {
    threshold := ⟨0x3f800000⟩
    offsets := [0, 1, 3, 4]
    neighborIds := [7, 7, 9, 7]
    neighborDistances := [⟨0x3f000000⟩, ⟨0⟩, ⟨0x3f800000⟩, ⟨0x3f000000⟩]
    rowOffsets := by decide
    length_distances := rfl }

theorem sevensAndNine_in_unit_interval :
    (∃ report, sevensAndNine.evaluate (runOf [[8], [10, 8], [8, 1]]) = .ok report ∧
      report.aggregateRecall = .one) ∧
    (∃ recalls : List (Rounded Binary64.rounding),
      sevensAndNine.recalls (runOf [[8], [8], []]).records = .ok recalls ∧ recalls.length = 3 ∧
        0 ≤ (Recall.aggregate recalls).value ∧ (Recall.aggregate recalls).value ≤ 1) ∧
    ∃ report, sevensAndNine.evaluate (runOf [[7], [], [9]]) = .ok report ∧
      report.aggregateRecall = .zero := by
  have fits : ∀ neighbor ∈ sevensAndNine.groundTruth.neighborIds,
      (neighbor.toNat : Int) + sevensAndNine.idOffset.shift.toInt < signedLimit := by
    intro neighbor _
    have shift : sevensAndNine.idOffset.shift.toInt = 1 := by decide
    have bound := neighbor.toNat_lt
    simp only [shift, signedLimit]
    omega
  refine ⟨?_, ?_, ?_⟩
  · obtain ⟨-, recalls, report, -, graded, -, -, -, -, all, -⟩ :=
      recall_in_unit_interval sevensAndNine (runOf [[8], [10, 8], [8, 1]]) fits rfl
        (ExecutionRun.inOrder_iff.mpr (by decide)) (by decide)
    exact ⟨report, graded, all (by decide)⟩
  · obtain ⟨recalls, graded, length, -, least, greatest, -⟩ :=
      (recall_in_unit_interval sevensAndNine (runOf [[8], [8], []]) fits rfl
        (ExecutionRun.inOrder_iff.mpr (by decide)) (by decide)).1 Binary64.rounding
    exact ⟨recalls, graded, length, least, greatest⟩
  · obtain ⟨-, recalls, report, -, graded, -, -, -, -, -, none⟩ :=
      recall_in_unit_interval sevensAndNine (runOf [[7], [], [9]]) fits rfl
        (ExecutionRun.inOrder_iff.mpr (by decide)) (by decide)
    exact ⟨report, graded, none (by decide) (by decide)⟩

end RecallEvaluator

end RangeRecall
