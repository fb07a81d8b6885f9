import RangeRecall.Benchmark.Run
import RangeRecall.Proofs.Grade.SetRecall
import RangeRecall.Proofs.GroundTruth.RowLists

/-! Shifts that leave the signed words. Below that limit the identifier of a neighbor is the exact
sum, if there is one, and above it the shift faults. A grading looks at every neighbor of every
query, so one neighbor beyond the limit faults the grading of every run that lines up. -/

namespace RangeRecall

namespace IdOffset

variable {offset : IdOffset} {neighbor : UInt32}

theorem storeId?_of_negative (negative : (neighbor.toNat : Int) + offset.shift.toInt < 0) :
    offset.storeId? neighbor = .ok .none := by
  have below : (neighbor.toNat : Int) + offset.shift.toInt < signedLimit := by
    simp only [signedLimit]
    omega
  simp only [storeId?, if_pos below, if_neg (Int.not_le.mpr negative)]

theorem storeId?_of_overflow (overflows : ¬offset.Fits neighbor) :
    offset.storeId? neighbor = .error .arithmeticOverflow :=
  if_neg overflows

end IdOffset

theorem GroundTruth.exists_neighbors_of_mem {truth : GroundTruth} {neighbor : UInt32}
    (member : neighbor ∈ truth.neighborIds) :
    ∃ query neighbors, query < truth.queryCount ∧ truth.neighbors query = .ok neighbors ∧
      neighbor ∈ neighbors := by
  have compresses := compresses_of_ofRows (ofRows_cut truth)
  rw [← compresses.allNeighbors] at member
  obtain ⟨neighbors, listed, member⟩ := List.mem_flatten.mp member
  obtain ⟨row, rowListed, rfl⟩ := List.mem_map.mp listed
  obtain ⟨query, inside, rfl⟩ := List.getElem_of_mem rowListed
  exact ⟨query, _, compresses.length ▸ inside, compresses.neighbors query inside, member⟩

namespace RecallEvaluator

variable {evaluator : RecallEvaluator}

theorem countFound_of_overflow {returned : List UInt64} {neighbors : List UInt32}
    (overflows : ∃ neighbor ∈ neighbors, ¬evaluator.idOffset.Fits neighbor) :
    evaluator.countFound returned neighbors = .error .arithmeticOverflow := by
  induction neighbors with
  | nil =>
      obtain ⟨_, member, _⟩ := overflows
      exact absurd member List.not_mem_nil
  | cons neighbor rest induction =>
      by_cases fits : evaluator.idOffset.Fits neighbor
      · obtain ⟨id?, shifted, -⟩ := IdOffset.storeId?_spec fits returned
        have later : ∃ other ∈ rest, ¬evaluator.idOffset.Fits other := by
          obtain ⟨other, member, overflow⟩ := overflows
          rcases List.mem_cons.mp member with rfl | inside
          · exact absurd fits overflow
          · exact ⟨other, inside, overflow⟩
        rw [countFound, shifted, induction later]
        rfl
      · rw [countFound, IdOffset.storeId?_of_overflow fits]
        rfl

theorem queryRecall_of_overflow {query : Nat} {neighbors : List UInt32} (returned : List UInt64)
    (row : evaluator.groundTruth.neighbors query = .ok neighbors)
    (overflows : ∃ neighbor ∈ neighbors, ¬evaluator.idOffset.Fits neighbor) :
    (evaluator.queryRecall query returned : Except Fault Binary64) =
      .error .arithmeticOverflow := by
  have distinct : ∃ neighbor ∈ neighbors.eraseDups, ¬evaluator.idOffset.Fits neighbor := by
    obtain ⟨neighbor, member, overflow⟩ := overflows
    exact ⟨neighbor, List.mem_eraseDups.mpr member, overflow⟩
  rw [queryRecall, tally, row]
  change (evaluator.countFound returned neighbors.eraseDups >>= _ >>= _) = _
  rw [countFound_of_overflow distinct]
  rfl

theorem queryRecall_fault {query : Nat} (inside : query < evaluator.groundTruth.queryCount)
    {returned : List UInt64} {fault : Fault}
    (failed : (evaluator.queryRecall query returned : Except Fault Binary64) = .error fault) :
    fault = .arithmeticOverflow := by
  obtain ⟨neighbors, row, -⟩ := GroundTruth.exists_neighbors inside
  by_cases fits : ∀ neighbor ∈ neighbors, evaluator.idOffset.Fits neighbor
  · rw [queryRecall_eq_ok (tally_eq_card returned row fits)] at failed
    cases failed
  · have overflows : ∃ neighbor ∈ neighbors, ¬evaluator.idOffset.Fits neighbor := by
      simpa only [not_forall, exists_prop] using fits
    rw [queryRecall_of_overflow returned row overflows] at failed
    exact (Except.error.inj failed).symm

theorem evaluate_of_overflow {run : ExecutionRun}
    (complete : run.records.length = evaluator.groundTruth.queryCount) (ordered : run.InOrder)
    (overflows : ∃ neighbor ∈ evaluator.groundTruth.neighborIds,
      ¬evaluator.idOffset.Fits neighbor) :
    evaluator.evaluate run = .error (.fault .arithmeticOverflow) := by
  have inside : ∀ record ∈ run.records,
      record.index < evaluator.groundTruth.queryCount := by
    intro record member
    obtain ⟨position, found⟩ := List.getElem?_of_mem member
    rw [ordered position record found, ← complete]
    exact (List.getElem?_eq_some_iff.mp found).1
  obtain ⟨neighbor, member, overflow⟩ := overflows
  obtain ⟨query, neighbors, queryInside, row, inRow⟩ :=
    GroundTruth.exists_neighbors_of_mem member
  have recordInside : query < run.records.length := complete ▸ queryInside
  have index : run.records[query].index = query :=
    ordered query _ (List.getElem?_eq_getElem recordInside)
  have failed : (evaluator.queryRecall run.records[query].index run.records[query].resultIds :
      Except Fault Binary64) = .error .arithmeticOverflow := by
    rw [index]
    exact queryRecall_of_overflow _ row ⟨neighbor, inRow, overflow⟩
  have graded : (run.records.mapM fun record =>
      (liftM (evaluator.queryRecall record.index record.resultIds : Except Fault Binary64) :
        Attempt Binary64)) = .error (.fault .arithmeticOverflow) := by
    -- An earlier record may fault before this one, but only for an overflow as well.
    refine Failure.mapM_eq_error ⟨_, List.getElem_mem recordInside, by rw [failed]; rfl⟩ ?_
    intro record member other failedHere
    rcases graded : (evaluator.queryRecall record.index record.resultIds : Except Fault Binary64)
      with fault | _
    · rw [graded] at failedHere
      cases failedHere
      rw [queryRecall_fault (inside record member) graded]
    · rw [graded] at failedHere
      cases failedHere
  rw [evaluate, recalls, checkAlignment_eq_ok_iff.mpr ⟨complete, ordered⟩]
  change (run.records.mapM _ >>= _) = _
  rw [graded]
  rfl

theorem exists_evaluate_iff_fits {run : ExecutionRun}
    (complete : run.records.length = evaluator.groundTruth.queryCount) (ordered : run.InOrder) :
    (∃ report, evaluator.evaluate run = .ok report) ↔
      ∀ neighbor ∈ evaluator.groundTruth.neighborIds, evaluator.idOffset.Fits neighbor := by
  by_cases fits : ∀ neighbor ∈ evaluator.groundTruth.neighborIds, evaluator.idOffset.Fits neighbor
  · have graded := (evaluate_of_aligned (shiftsFit_of_neighborIds fits) complete ordered).2
    exact ⟨fun _ => fits, fun _ => ⟨_, graded⟩⟩
  · have overflows : ∃ neighbor ∈ evaluator.groundTruth.neighborIds,
        ¬evaluator.idOffset.Fits neighbor := by
      simpa only [not_forall, exists_prop] using fits
    refine ⟨fun ⟨report, graded⟩ => ?_, fun allFit => absurd allFit fits⟩
    cases graded.symm.trans (evaluate_of_overflow complete ordered overflows)

end RecallEvaluator

/-- A shift is exact below the limit of the signed words: the identifier is the sum if that is not
negative, and there is none otherwise. At and above the limit it faults. A configuration is valid
with every shift or with none, and it grades a run that lines up exactly if the shift of every
neighbor stays below the limit, and faults otherwise. -/
theorem shift_exact_below_signedLimit (offset : IdOffset) :
    (∀ neighbor : UInt32,
      let sum : Int := neighbor.toNat + offset.shift.toInt
      (sum < 0 → offset.storeId? neighbor = .ok none) ∧
        (0 ≤ sum → sum < signedLimit →
          ∃ id : UInt64, offset.storeId? neighbor = .ok (some id) ∧ (id.toNat : Int) = sum) ∧
        (signedLimit ≤ sum → offset.storeId? neighbor = .error .arithmeticOverflow)) ∧
      ∀ (config : BenchmarkConfig) (truth : GroundTruth) (run : ExecutionRun),
        let shifted : BenchmarkConfig := { config with idOffset := offset }
        let graded := (Benchmark.evaluator shifted truth).evaluate run
        (shifted.validateExecution = .ok () ↔ config.validateExecution = .ok ()) ∧
          (run.records.length = truth.queryCount → run.InOrder →
            ((∃ report, graded = .ok report) ↔ ∀ neighbor ∈ truth.neighborIds,
              (neighbor.toNat : Int) + offset.shift.toInt < signedLimit) ∧
            ((¬∃ report, graded = .ok report) →
              graded = .error (.fault .arithmeticOverflow))) := by
  constructor
  · intro neighbor sum
    refine ⟨IdOffset.storeId?_of_negative, ?_, ?_⟩
    · intro notNegative below
      obtain ⟨id, same⟩ := Int.eq_ofNat_of_zero_le notNegative
      have value : (UInt64.ofNat id).toNat = id := by
        apply UInt64.toNat_ofNat_of_lt'
        simp only [signedLimit, UInt64.size] at *
        omega
      refine ⟨UInt64.ofNat id, IdOffset.storeId?_of_sum same (by omega), ?_⟩
      rw [value]
      exact same.symm
    · exact fun overflows => IdOffset.storeId?_of_overflow (Int.not_lt.mpr overflows)
  · intro config truth run shifted graded
    refine ⟨Iff.rfl, fun complete ordered => ?_⟩
    have gradedIff := @RecallEvaluator.exists_evaluate_iff_fits
      (Benchmark.evaluator shifted truth) run complete ordered
    refine ⟨gradedIff, fun fails => ?_⟩
    apply RecallEvaluator.evaluate_of_overflow complete ordered
    simpa only [not_forall, exists_prop] using mt gradedIff.mpr fails

theorem greatest_shift_faults :
    (∃ id : UInt64, IdOffset.storeId? { shift := 9223372036854775807 } 0 = .ok (some id) ∧
      (id.toNat : Int) = 9223372036854775807) ∧
      IdOffset.storeId? { shift := 9223372036854775807 } 1 = .error .arithmeticOverflow ∧
      (∃ report, (Benchmark.evaluator { idOffset := { shift := -5 } }
        RecallEvaluator.fiveBelow.groundTruth).evaluate
          (RecallEvaluator.runOf [[2, 9], [], []]) = .ok report) ∧
      (Benchmark.evaluator { idOffset := { shift := 9223372036854775807 } }
        RecallEvaluator.fiveBelow.groundTruth).evaluate
          (RecallEvaluator.runOf [[2, 9], [], []]) = .error (.fault .arithmeticOverflow) := by
  have ordered : (RecallEvaluator.runOf [[2, 9], [], []]).InOrder :=
    ExecutionRun.inOrder_iff.mpr (by decide)
  obtain ⟨shifts, grades⟩ :=
    shift_exact_below_signedLimit { shift := 9223372036854775807 }
  obtain ⟨-, gradesBelow⟩ := shift_exact_below_signedLimit { shift := -5 }
  obtain ⟨graded, -⟩ := (gradesBelow {} RecallEvaluator.fiveBelow.groundTruth _).2 rfl ordered
  obtain ⟨gradedIff, faults⟩ :=
    (grades {} RecallEvaluator.fiveBelow.groundTruth _).2 rfl ordered
  have fits : ∀ neighbor ∈ RecallEvaluator.fiveBelow.groundTruth.neighborIds,
      (neighbor.toNat : Int) + ({ shift := -5 } : IdOffset).shift.toInt < signedLimit := by
    intro neighbor _
    have shift : (-5 : Int64).toInt = -5 := by decide
    have bound := neighbor.toNat_lt
    simp only [shift, signedLimit]
    omega
  refine ⟨(shifts 0).2.1 (by decide) (by decide), (shifts 1).2.2 (by decide),
    graded.mpr fits, faults fun report => ?_⟩
  exact absurd (gradedIff.mp report 4 (by decide)) (by decide)

end RangeRecall
