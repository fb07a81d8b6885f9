import RangeRecall.Proofs.GroundTruth.Parts
import RangeRecall.Proofs.Vector.RowMajor

/-! Access by position. No position is compared with the number of rows: it is computed where the
row begins and ends, and that must lie within what is stored. This keeps out every position behind
the rows, also where the computation leaves the words. In one batch it keeps out nothing: if there
are neither rows nor a dimension, every row begins and ends at zero. -/

namespace RangeRecall

/-! ## Words -/

def multiplyWords (left right : UInt64) : Except Fault UInt64 :=
  if left.toNat * right.toNat < wordLimit then .ok (left * right)
  else .error .arithmeticOverflow

theorem exists_multiplyWords {left right : UInt64} (word : left.toNat * right.toNat < wordLimit) :
    ∃ product, multiplyWords left right = .ok product ∧
      product.toNat = left.toNat * right.toNat := by
  refine ⟨left * right, if_pos word, ?_⟩
  rw [UInt64.toNat_mul]
  exact Nat.mod_eq_of_lt word

theorem exists_addWords {left right : UInt64} (word : left.toNat + right.toNat < wordLimit) :
    ∃ sum, addWords left right = .ok sum ∧ sum.toNat = left.toNat + right.toNat := by
  refine ⟨left + right, if_pos word, ?_⟩
  rw [UInt64.toNat_add]
  exact Nat.mod_eq_of_lt word

/-! ## Vectors of a batch -/

namespace VectorBatch

variable {batch : VectorBatch}

def zeroByZero : VectorBatch where
  count := 0
  dimension := 0
  components := []
  length_components := (Nat.zero_mul 0).symm
  count_eq_zero := id

theorem eq_zeroByZero_iff : batch = zeroByZero ↔ batch.dimension = 0 := by
  constructor
  · rintro rfl
    rfl
  · intro zero
    have none : batch.rows = zeroByZero.rows := by
      rw [rows, rows, batch.count_eq_zero zero]
      rfl
    exact eq_of_rows none zero

theorem row_end_le_iff {index : Nat} :
    (index + 1) * batch.dimension ≤ batch.components.length ↔
      index < batch.count ∨ batch.dimension = 0 := by
  rw [batch.length_components]
  rcases Nat.eq_zero_or_pos batch.dimension with zero | positive
  · rw [zero, Nat.mul_zero, Nat.mul_zero]
    exact ⟨fun _ => .inr rfl, fun _ => Nat.le_refl 0⟩
  · rw [Nat.mul_le_mul_right_iff positive, Nat.succ_le_iff]
    exact (or_iff_left (Nat.ne_of_gt positive)).symm

theorem vectorAt_of_behind {index : Nat} (behind : batch.count ≤ index)
    (positive : batch.dimension ≠ 0) : batch.vectorAt index = .error .indexOutOfRange := by
  have exceeds : ¬(index + 1) * batch.dimension ≤ batch.components.length := by
    rw [row_end_le_iff]
    omega
  rw [Nat.succ_mul] at exceeds
  exact if_neg exceeds

/-- Access by position in words. Where the vector begins and where it ends is computed first, and
both must be words. -/
def wordVectorAt (batch : VectorBatch) (index : UInt64) : Except Fault (List Binary32) := do
  let start ← multiplyWords index (UInt64.ofNat batch.dimension)
  let stop ← addWords start (UInt64.ofNat batch.dimension)
  GroundTruth.between batch.components (start.toNat, stop.toNat)

theorem vectorAt_eq_between (batch : VectorBatch) (index : Nat) :
    batch.vectorAt index = GroundTruth.between batch.components
      (index * batch.dimension, index * batch.dimension + batch.dimension) := by
  simp only [vectorAt, GroundTruth.between, Nat.le_add_right, true_and, Nat.add_sub_cancel_left]

theorem wordVectorAt_of_word (wide : batch.dimension < wordLimit) {index : UInt64}
    (word : (index.toNat + 1) * batch.dimension < wordLimit) :
    batch.wordVectorAt index = batch.vectorAt index.toNat := by
  have dimension : (UInt64.ofNat batch.dimension).toNat = batch.dimension :=
    UInt64.toNat_ofNat_of_lt' wide
  rw [Nat.succ_mul] at word
  obtain ⟨start, multiplied, begins⟩ := @exists_multiplyWords index (.ofNat batch.dimension)
    (by rw [dimension]; omega)
  rw [dimension] at begins
  obtain ⟨stop, added, ends⟩ := @exists_addWords start (.ofNat batch.dimension)
    (by rw [dimension, begins]; exact word)
  rw [dimension] at ends
  rw [wordVectorAt, multiplied, vectorAt_eq_between, ← begins, ← ends]
  change (addWords start _ >>= _) = _
  rw [added]
  rfl

theorem wordVectorAt_of_large (wide : batch.dimension < wordLimit) {index : UInt64}
    (large : wordLimit ≤ (index.toNat + 1) * batch.dimension) :
    batch.wordVectorAt index = .error .arithmeticOverflow := by
  have dimension : (UInt64.ofNat batch.dimension).toNat = batch.dimension :=
    UInt64.toNat_ofNat_of_lt' wide
  rw [Nat.succ_mul] at large
  by_cases word : index.toNat * batch.dimension < wordLimit
  · obtain ⟨start, multiplied, begins⟩ := @exists_multiplyWords index (.ofNat batch.dimension)
      (by rw [dimension]; exact word)
    have noWord : ¬start.toNat + (UInt64.ofNat batch.dimension).toNat < wordLimit := by
      rw [begins, dimension]
      exact Nat.not_lt.mpr large
    rw [wordVectorAt, multiplied]
    change (addWords start _ >>= _) = _
    rw [addWords, if_neg noWord]
    rfl
  · rw [wordVectorAt, multiplyWords, dimension, if_neg word]
    rfl

theorem wordVectorAt_eq_row (wide : batch.dimension < wordLimit)
    (fits : batch.count * batch.dimension < wordLimit) {index : UInt64}
    (inside : index.toNat < batch.count) :
    batch.wordVectorAt index = .ok (batch.row index.toNat) := by
  have word : (index.toNat + 1) * batch.dimension < wordLimit :=
    Nat.lt_of_le_of_lt (Nat.mul_le_mul_right _ inside) fits
  rw [wordVectorAt_of_word wide word, vectorAt_eq_row inside]

theorem wordVectorAt_of_behind (wide : batch.dimension < wordLimit) {index : UInt64}
    (behind : batch.count ≤ index.toNat) (positive : batch.dimension ≠ 0) :
    batch.wordVectorAt index = .error
      (if wordLimit ≤ (index.toNat + 1) * batch.dimension then .arithmeticOverflow
        else .indexOutOfRange) := by
  split
  · rename_i large
    exact wordVectorAt_of_large wide large
  · rename_i word
    rw [wordVectorAt_of_word wide (Nat.lt_of_not_le word), vectorAt_of_behind behind positive]

theorem wordVectorAt_zeroByZero (index : UInt64) : zeroByZero.wordVectorAt index = .ok [] := by
  have word : (index.toNat + 1) * zeroByZero.dimension < wordLimit := by
    change (index.toNat + 1) * 0 < wordLimit
    rw [Nat.mul_zero]
    decide
  rw [wordVectorAt_of_word (by decide) word]
  rfl

end VectorBatch

/-! ## Positions behind the rows -/

/-- Positions behind the rows are refused, with one exception. Every batch that components make
hands out its row at a position before that and faults behind it, and where the end of a row would
be no word, computing it is the fault. The exception is the batch with neither rows nor a dimension,
which has an empty row at every position. Ground truths refuse all that is behind their rows. -/
theorem access_refused_behind_rows (index : UInt64) :
    (∀ (count dimension : UInt64) components batch,
      VectorBatch.ofComponents count.toNat dimension.toNat components = .ok batch →
        (index.toNat < batch.count → ∃ row, batch.rows[index.toNat]? = some row ∧
          batch.vectorAt index.toNat = .ok row ∧ batch.wordVectorAt index = .ok row) ∧
        (batch.count ≤ index.toNat → batch ≠ .zeroByZero →
          batch.vectorAt index.toNat = .error .indexOutOfRange ∧
            batch.wordVectorAt index = .error
              (if wordLimit ≤ (index.toNat + 1) * dimension.toNat then .arithmeticOverflow
                else .indexOutOfRange)) ∧
        (batch = .zeroByZero →
          batch.vectorAt index.toNat = .ok [] ∧ batch.wordVectorAt index = .ok [])) ∧
    ∀ truth : GroundTruth,
      (index.toNat < truth.queryCount → ∃ neighbors distances,
        truth.neighbors index.toNat = .ok neighbors ∧
          truth.distances index.toNat = .ok distances ∧ neighbors.length = distances.length) ∧
      (truth.queryCount ≤ index.toNat →
        truth.neighbors index.toNat = .error .indexOutOfRange ∧
          truth.distances index.toNat = .error .indexOutOfRange) := by
  refine ⟨?batches, ?truths⟩
  case batches =>
    intro count dimension components batch made
    obtain ⟨fits, countWord, dimensionWord, -⟩ := VectorBatch.ofComponents_eq_ok_iff.mp made
    have wide : batch.dimension < wordLimit := dimensionWord ▸ dimension.toNat_lt
    rw [← countWord, ← dimensionWord] at fits
    rw [← dimensionWord]
    refine ⟨fun inside => ?_, fun behind different => ?_, ?_⟩
    · exact ⟨_, VectorBatch.getElem?_rows inside, VectorBatch.vectorAt_eq_row inside,
        VectorBatch.wordVectorAt_eq_row wide fits inside⟩
    · have positive := mt VectorBatch.eq_zeroByZero_iff.mpr different
      exact ⟨VectorBatch.vectorAt_of_behind behind positive,
        VectorBatch.wordVectorAt_of_behind wide behind positive⟩
    · rintro rfl
      exact ⟨rfl, VectorBatch.wordVectorAt_zeroByZero index⟩
  case truths =>
    intro truth
    refine ⟨fun inside => ?_, GroundTruth.row_of_behind⟩
    obtain ⟨first, last, -, -, neighbors, distances⟩ := GroundTruth.exists_row inside
    refine ⟨_, _, neighbors, distances, ?_⟩
    simp only [List.length_take, List.length_drop, truth.length_distances]

theorem third_of_two_refused :
    VectorBatch.twoVectors.wordVectorAt 1 = .ok [⟨0x7fc00001⟩] ∧
      VectorBatch.twoVectors.wordVectorAt 2 = .error .indexOutOfRange ∧
      VectorBatch.twoVectors.wordVectorAt 18446744073709551615 = .error .arithmeticOverflow ∧
      VectorBatch.ofRows [] = .ok VectorBatch.zeroByZero ∧
      VectorBatch.zeroByZero.vectorAt 7 = .ok [] ∧
      ∃ truth, GroundTruth.ofRows ⟨0⟩ [[], [(3, ⟨0⟩)]] = .ok truth ∧
        (∃ neighbors, truth.neighbors 1 = .ok neighbors) ∧
        truth.neighbors 2 = .error .indexOutOfRange := by
  have words : VectorBatch.ofComponents (2 : UInt64).toNat (1 : UInt64).toNat
      VectorBatch.twoVectors.components = .ok VectorBatch.twoVectors := rfl
  have none : VectorBatch.ofComponents (0 : UInt64).toNat (0 : UInt64).toNat [] =
      .ok VectorBatch.zeroByZero := rfl
  have different : VectorBatch.twoVectors ≠ .zeroByZero := by decide
  have access := fun index => (access_refused_behind_rows index).1 2 1 _ _ words
  obtain ⟨row, found, -, second⟩ := (access 1).1 (by decide)
  cases found
  refine ⟨second, ((access 2).2.1 (by decide) different).2,
    ((access 18446744073709551615).2.1 (by decide) different).2, rfl,
    (((access_refused_behind_rows 7).1 0 0 _ _ none).2.2 rfl).1, ?_⟩
  obtain ⟨truth, built, two⟩ : ∃ truth, GroundTruth.ofRows ⟨0⟩ [[], [(3, ⟨0⟩)]] = .ok truth ∧
      truth.queryCount = 2 := ⟨_, rfl, rfl⟩
  have rows := fun index => (access_refused_behind_rows index).2 truth
  obtain ⟨neighbors, _, row, -⟩ := (rows 1).1 (by rw [two]; decide)
  exact ⟨truth, built, ⟨neighbors, row⟩, ((rows 2).2 (Nat.le_of_eq two)).1⟩

end RangeRecall
