import Mathlib.Algebra.BigOperators.Group.Finset.Piecewise
import Mathlib.Data.Nat.Find
import RangeRecall.Proofs.Grade.SetRecall
import RangeRecall.Proofs.Grade.TopK

/-! What the comparison of two top-k runs counts. The grading walks through both runs at once, and
what it adds up are sums over the positions of the runs: how many ranks below `k` a baseline
answer fills, and at how many of them stands something that the target returned as well. -/

namespace RangeRecall

/-! ## Runs out of order -/

namespace ExecutionRun

structure FirstMisplaced (run : ExecutionRun) (position : Nat) (record : ExecutionRecord) :
    Prop where
  found : run.records[position]? = some record
  misplaced : record.index ≠ position
  before : ∀ earlier < position, ∀ other, run.records[earlier]? = some other →
    other.index = earlier

theorem FirstMisplaced.checkRecordOrder_eq {run : ExecutionRun} {position : Nat}
    {record : ExecutionRecord} (first : run.FirstMisplaced position record) :
    checkRecordOrder run.records = .error (.recordOutOfOrder position record.index) :=
  checkRecordOrder_of_first first.found first.misplaced first.before

theorem exists_firstMisplaced {run : ExecutionRun} (unordered : ¬run.InOrder) :
    ∃ position record, run.FirstMisplaced position record := by
  classical
  have misplaced : ∃ (position : Nat) (record : ExecutionRecord),
      run.records[position]? = some record ∧ record.index ≠ position := by
    simpa only [InOrder, not_forall, exists_prop] using unordered
  obtain ⟨record, found, elsewhere⟩ := Nat.find_spec misplaced
  refine ⟨_, record, found, elsewhere, fun earlier isBefore other otherFound => ?_⟩
  by_contra outOfPlace
  exact Nat.find_min misplaced isBefore ⟨other, otherFound, outOfPlace⟩

end ExecutionRun

namespace TopKReport

/-! ## Counts as sums -/

/-- The identifiers that a run returned at a position, none behind its last record. -/
def answerAt (records : List ExecutionRecord) (position : Nat) : List UInt64 :=
  (records[position]?.map ExecutionRecord.resultIds).getD []

/-- The ranks below `k` at which a baseline answer lists an identifier that was returned. -/
def hitRanks (k : Nat) (expected returned : List UInt64) : Finset Nat :=
  (Finset.range k).filter fun rank => ∃ id ∈ returned, expected[rank]? = some id

theorem countP_take_eq_card (holds : α → Bool) (k : Nat) (items : List α) :
    (items.take k).countP holds =
      ((Finset.range k).filter fun place => items[place]?.any holds = true).card := by
  induction items generalizing k with
  | nil => simp
  | cons item rest induction =>
      cases k with
      | zero => rfl
      | succ k =>
          have later := induction k
          rw [Finset.card_filter] at later
          rw [List.take_succ_cons, List.countP_cons, later, Finset.card_filter,
            Finset.sum_range_succ']
          simp only [List.getElem?_cons_succ, List.getElem?_cons_zero, Option.any_some]

variable {k : Nat} {baseline target : List ExecutionRecord}

theorem hits_eq_card (first second : ExecutionRecord) :
    hits k first second = (hitRanks k first.resultIds second.resultIds).card := by
  rw [hits, relevantIds, countP_take_eq_card, hitRanks]
  congr 1
  apply Finset.filter_congr
  intro rank _
  cases first.resultIds[rank]? <;> simp

theorem totalHits_eq_sum :
    totalHits k baseline target =
      ∑ position ∈ Finset.range baseline.length,
        (hitRanks k (answerAt baseline position) (answerAt target position)).card := by
  induction baseline generalizing target with
  | nil => rfl
  | cons first baseline induction =>
      cases target with
      | nil =>
          symm
          apply Finset.sum_eq_zero
          intro position _
          simp [hitRanks, answerAt]
      | cons second target =>
          rw [totalHits, induction, hits_eq_card, List.length_cons, Finset.sum_range_succ',
            Nat.add_comm]
          rfl

theorem relevantCount_eq_sum :
    relevantCount k baseline =
      ∑ position ∈ Finset.range baseline.length, min k (answerAt baseline position).length := by
  induction baseline with
  | nil => rfl
  | cons first baseline induction =>
      rw [relevantCount] at induction
      rw [relevantCount, List.flatMap_cons, List.length_append, induction, relevantIds,
        List.length_take, List.length_cons, Finset.sum_range_succ', Nat.add_comm]
      rfl

theorem countP_short_eq_card :
    target.countP (fun record => record.resultIds.length < k) =
      ((Finset.range target.length).filter fun position =>
        (answerAt target position).length < k).card := by
  have counted := countP_take_eq_card
    (fun record : ExecutionRecord => decide (record.resultIds.length < k)) target.length target
  rw [List.take_length] at counted
  rw [counted]
  congr 1
  apply Finset.filter_congr
  intro position member
  simp [answerAt, List.getElem?_eq_getElem (Finset.mem_range.mp member)]

theorem totalHits_le_relevantCount : totalHits k baseline target ≤ relevantCount k baseline := by
  induction baseline generalizing target with
  | nil => exact Nat.zero_le _
  | cons first baseline induction =>
      cases target with
      | nil => exact Nat.zero_le _
      | cons second target =>
          have here : hits k first second ≤ (relevantIds k first).length := List.countP_le_length
          have later := @induction target
          rw [relevantCount] at later
          rw [totalHits, relevantCount, List.flatMap_cons, List.length_append]
          exact Nat.add_le_add here later

/-! ## The comparison -/

/-- Why two runs are not compared, and with which error. Each reason supposes that those before it
do not hold. -/
inductive Refusal (baseline target : ExecutionRun) (k : Nat) : Error → Prop
  | zeroK (zero : k = 0) : Refusal baseline target k (.invalidParameter .zeroK)
  | lengths (positive : 0 < k)
      (differ : baseline.records.length ≠ target.records.length) :
      Refusal baseline target k
        (.alignment target.records.length baseline.records.length)
  | baselineOrder (positive : 0 < k)
      (lengths : baseline.records.length = target.records.length)
      {position : Nat} {record : ExecutionRecord}
      (first : baseline.FirstMisplaced position record) :
      Refusal baseline target k (.recordOutOfOrder position record.index)
  | targetOrder (positive : 0 < k)
      (lengths : baseline.records.length = target.records.length)
      (ordered : baseline.InOrder) {position : Nat} {record : ExecutionRecord}
      (first : target.FirstMisplaced position record) :
      Refusal baseline target k (.recordOutOfOrder position record.index)

structure Matched (baseline target : ExecutionRun) (k : Nat) : Prop where
  positive : 0 < k
  lengths : baseline.records.length = target.records.length
  baselineOrdered : baseline.InOrder
  targetOrdered : target.InOrder

section

variable {baseline target : ExecutionRun} {cause : Error}

theorem matched_or_refusal :
    Matched baseline target k ∨ ∃ cause, Refusal baseline target k cause := by
  rcases Nat.eq_zero_or_pos k with zero | positive
  · exact .inr ⟨_, .zeroK zero⟩
  by_cases lengths : baseline.records.length = target.records.length
  · by_cases ordered : baseline.InOrder
    · by_cases targetOrdered : target.InOrder
      · exact .inl ⟨positive, lengths, ordered, targetOrdered⟩
      · obtain ⟨_, _, first⟩ := ExecutionRun.exists_firstMisplaced targetOrdered
        exact .inr ⟨_, .targetOrder positive lengths ordered first⟩
    · obtain ⟨_, _, first⟩ := ExecutionRun.exists_firstMisplaced ordered
      exact .inr ⟨_, .baselineOrder positive lengths first⟩
  · exact .inr ⟨_, .lengths positive lengths⟩

theorem compare_of_refusal (refusal : Refusal baseline target k cause) :
    compare baseline target k = .error cause := by
  cases refusal with
  | zeroK zero =>
      rw [compare, if_pos zero]
      rfl
  | lengths positive differ =>
      rw [compare, if_neg (Nat.ne_of_gt positive), if_pos differ]
      rfl
  | baselineOrder positive lengths first =>
      rw [compare, if_neg (Nat.ne_of_gt positive), if_neg (fun differ => differ lengths),
        first.checkRecordOrder_eq]
      rfl
  | targetOrder positive lengths ordered first =>
      rw [compare, if_neg (Nat.ne_of_gt positive), if_neg (fun differ => differ lengths),
        checkRecordOrder_eq_ok (ExecutionRun.inOrder_iff.mp ordered), first.checkRecordOrder_eq]
      rfl

theorem exists_compare_iff :
    (∃ report, compare baseline target k = .ok report) ↔ Matched baseline target k := by
  constructor
  · rintro ⟨report, compared⟩
    rcases @matched_or_refusal k baseline target with matched | ⟨cause, refusal⟩
    · exact matched
    · cases compared.symm.trans (compare_of_refusal refusal)
  · intro matched
    exact ⟨_, compare_eq_ok matched.positive matched.lengths
      (ExecutionRun.inOrder_iff.mp matched.baselineOrdered)
      (ExecutionRun.inOrder_iff.mp matched.targetOrdered)⟩

theorem compare_eq_error_iff :
    compare baseline target k = .error cause ↔ Refusal baseline target k cause := by
  refine ⟨fun failed => ?_, compare_of_refusal⟩
  rcases @matched_or_refusal k baseline target with matched | ⟨other, refusal⟩
  · obtain ⟨report, compared⟩ := exists_compare_iff.mpr matched
    cases compared.symm.trans failed
  · cases (compare_of_refusal refusal).symm.trans failed
    exact refusal

theorem Matched.self (positive : 0 < k) (ordered : baseline.InOrder) :
    Matched baseline baseline k :=
  ⟨positive, rfl, ordered, ordered⟩

end

/-- Two runs are compared exactly if `k` is positive, both have as many records, and all of these
are in their places. Otherwise the error names the first of these conditions that does not hold,
in this order and for the baseline before the target. The report counts over all positions: what
the baseline lists at ranks below `k` is relevant, whether it was listed before or not, and is a
hit if the target returned it anywhere at that position. A run compared with itself hits all. -/
theorem compare_counts_ranks (baseline target : ExecutionRun) (k : Nat) :
    let positions := Finset.range baseline.records.length
    let expected := answerAt baseline.records
    let returned := answerAt target.records
    let relevant := ∑ position ∈ positions, min k (expected position).length
    let hits := ∑ position ∈ positions, (hitRanks k (expected position) (returned position)).card
    ((∃ report, compare baseline target k = .ok report) ↔
      0 < k ∧ baseline.records.length = target.records.length ∧ baseline.InOrder ∧
        target.InOrder) ∧
    (∀ cause, compare baseline target k = .error cause ↔ Refusal baseline target k cause) ∧
    (∀ report, compare baseline target k = .ok report →
      report.k = k ∧ report.queryCount = baseline.records.length ∧
        report.shortResults =
          (positions.filter fun position => (returned position).length < k).card ∧
        hits ≤ relevant ∧
        report.aggregateRecall =
          if relevant = 0 then .one else (Binary64.ofNat hits).divide (.ofNat relevant)) ∧
    (0 < k → baseline.InOrder → (∃ report, compare baseline baseline k = .ok report) ∧
      ∑ position ∈ positions, (hitRanks k (expected position) (expected position)).card =
        relevant) := by
  intro positions expected returned relevant hits
  have relevantEq : relevantCount k baseline.records = relevant := relevantCount_eq_sum
  have hitsEq : totalHits k baseline.records target.records = hits := totalHits_eq_sum
  refine ⟨?compared, fun cause => compare_eq_error_iff, ?counts, ?itself⟩
  case compared =>
    rw [exists_compare_iff]
    exact ⟨fun ⟨positive, lengths, ordered, targetOrdered⟩ =>
        ⟨positive, lengths, ordered, targetOrdered⟩,
      fun ⟨positive, lengths, ordered, targetOrdered⟩ =>
        ⟨positive, lengths, ordered, targetOrdered⟩⟩
  case counts =>
    intro report compared
    have matched := exists_compare_iff.mp ⟨report, compared⟩
    have whole := compare_eq_ok matched.positive matched.lengths
      (ExecutionRun.inOrder_iff.mp matched.baselineOrdered)
      (ExecutionRun.inOrder_iff.mp matched.targetOrdered)
    cases compared.symm.trans whole
    refine ⟨rfl, matched.lengths.symm, ?_, ?_, ?_⟩
    · dsimp only
      rw [countP_short_eq_card, ← matched.lengths]
    · rw [← hitsEq, ← relevantEq]
      exact totalHits_le_relevantCount
    · dsimp only
      rw [hitsEq, relevantEq]
      rfl
  case itself =>
    intro positive ordered
    refine ⟨exists_compare_iff.mpr (Matched.self positive ordered), ?_⟩
    rw [← relevantEq, ← totalHits_of_same_answers rfl]
    exact totalHits_eq_sum.symm

/-- The baseline lists five twice and the target once, and both are hits, but of one and two only
one is returned. The baseline has no third answer, so what the target returned there is short, but
nothing is missing. -/
theorem three_of_four_hits :
    ∃ report, compare (RecallEvaluator.runOf [[5, 5, 7], [1, 2], []])
        (RecallEvaluator.runOf [[5], [3, 1, 1], [9]]) 2 = .ok report ∧
      report.shortResults = 2 ∧ report.aggregateRecall = ⟨0x3fe8000000000000⟩ := by
  obtain ⟨compared, -, counts, -⟩ := compare_counts_ranks
    (RecallEvaluator.runOf [[5, 5, 7], [1, 2], []])
    (RecallEvaluator.runOf [[5], [3, 1, 1], [9]]) 2
  have ordered : (RecallEvaluator.runOf [[5, 5, 7], [1, 2], []]).InOrder :=
    ExecutionRun.inOrder_iff.mpr (by decide)
  have targetOrdered : (RecallEvaluator.runOf [[5], [3, 1, 1], [9]]).InOrder :=
    ExecutionRun.inOrder_iff.mpr (by decide)
  obtain ⟨report, graded⟩ := compared.mpr ⟨by decide, rfl, ordered, targetOrdered⟩
  obtain ⟨-, -, short, -, share⟩ := counts report graded
  refine ⟨report, graded, short.trans (by decide), share.trans ?_⟩
  decide +kernel

end TopKReport

end RangeRecall
