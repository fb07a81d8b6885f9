import Mathlib.Algebra.Order.BigOperators.Group.List
import Mathlib.Algebra.Order.Ring.Nat
import RangeRecall.Proofs.GroundTruth.NearRows
import RangeRecall.Proofs.Vector.RowMajor

/-! Everything that is drawn from one seed comes from one stream. A generator keeps what is left of
the blocks that it has computed, and hands out the words of the stream in order across the ends of
blocks. So a batch that is drawn after another continues it, and a row depends on its position
alone, not on the batch it belongs to. -/

namespace RangeRecall

/-! ## Generators -/

namespace Random

def words (key : List UInt32) (position count : Nat) : List UInt32 :=
  (List.range' position count).map (word key)

theorem words_succ (key : List UInt32) (position count : Nat) :
    words key position (count + 1) = word key position :: words key (position + 1) count := rfl

theorem words_add (key : List UInt32) (position first second : Nat) :
    words key position (first + second) =
      words key position first ++ words key (position + first) second := by
  rw [words, words, words, ← List.map_append, List.range'_append_1]

theorem word_of_block (key : List UInt32) (counter : Nat) {place : Nat} (inside : place < 16) :
    word key (16 * counter + place) = (block key counter)[place] := by
  have block : (16 * counter + place) / 16 = counter := by omega
  have within : (16 * counter + place) % 16 = place := by omega
  simp only [word, block, within]

theorem toList_block (key : List UInt32) (counter : Nat) :
    (block key counter).toList = words key (16 * counter) 16 := by
  apply List.ext_getElem
  · simp [words]
  · intro place inside _
    have isPlace : place < 16 := by simpa using inside
    simp [words, word_of_block key counter isPlace]

/-- Hands out the words of a stream one by one. So many blocks as the stride says are computed at a
time, and what is not used yet is kept. -/
structure Generator where
  key : List UInt32
  stride : Nat
  stride_pos : 0 < stride
  nextBlock : Nat
  unused : List UInt32

namespace Generator

variable {generator : Generator} {key : List UInt32} {position : Nat}

def ofSeed (stride : Nat) (positive : 0 < stride) (seed : UInt64) : Generator where
  key := Random.key seed
  stride := stride
  stride_pos := positive
  nextBlock := 0
  unused := []

def refill (generator : Generator) : List UInt32 :=
  (List.range' generator.nextBlock generator.stride).flatMap fun counter =>
    (block generator.key counter).toList

theorem flatMap_blocks (key : List UInt32) (counter count : Nat) :
    ((List.range' counter count).flatMap fun counter => (block key counter).toList) =
      words key (16 * counter) (16 * count) := by
  induction count generalizing counter with
  | zero => rfl
  | succ count induction =>
      rw [List.range'_succ, List.flatMap_cons, induction, toList_block, Nat.mul_succ, Nat.mul_succ,
        Nat.add_comm (16 * count), words_add]

theorem refill_eq (generator : Generator) :
    generator.refill =
      words generator.key (16 * generator.nextBlock) (16 * generator.stride) :=
  flatMap_blocks _ _ _

theorem refill_ne_nil (generator : Generator) : generator.refill ≠ [] := by
  have positive := generator.stride_pos
  rw [refill_eq, words, Ne, List.map_eq_nil_iff, List.range'_eq_nil_iff]
  omega

def next (generator : Generator) : UInt32 × Generator :=
  match generator.unused with
  | word :: rest => (word, { generator with unused := rest })
  | [] =>
    (generator.refill.head generator.refill_ne_nil, { generator with
      nextBlock := generator.nextBlock + generator.stride
      unused := generator.refill.tail })

def draw (generator : Generator) : (count : Nat) → List UInt32 × Generator
  | 0 => ([], generator)
  | count + 1 =>
    let rest := generator.next.2.draw count
    (generator.next.1 :: rest.1, rest.2)

/-- The generator hands out the word at the position next: it keeps the words from there to the end
of the blocks that have been computed. -/
structure IsAt (generator : Generator) (key : List UInt32) (position : Nat) : Prop where
  sameKey : generator.key = key
  computed : position ≤ 16 * generator.nextBlock
  unused : generator.unused = words key position (16 * generator.nextBlock - position)

theorem isAt_ofSeed (stride : Nat) (positive : 0 < stride) (seed : UInt64) :
    (ofSeed stride positive seed).IsAt (Random.key seed) 0 where
  sameKey := rfl
  computed := Nat.zero_le _
  unused := rfl

theorem IsAt.next (isAt : generator.IsAt key position) :
    generator.next.1 = word key position ∧ generator.next.2.IsAt key (position + 1) := by
  obtain ⟨sameKey, computed, unused⟩ := isAt
  rcases left : 16 * generator.nextBlock - position with _ | count
  · -- Nothing is kept, so the position is where the next block begins.
    have boundary : position = 16 * generator.nextBlock := by omega
    obtain ⟨more, blocks⟩ : ∃ more, 16 * generator.stride = more + 1 :=
      Nat.exists_eq_succ_of_ne_zero (by have := generator.stride_pos; omega)
    have refilled : generator.refill = word key position :: words key (position + 1) more := by
      rw [refill_eq, sameKey, ← boundary, blocks, words_succ]
    have empty : generator.unused = [] := by rw [unused, left]; rfl
    simp only [Generator.next, empty, refilled, List.head_cons, List.tail_cons]
    refine ⟨trivial, sameKey, ?_, ?_⟩
    · dsimp only
      omega
    · have rest : 16 * (generator.nextBlock + generator.stride) - (position + 1) = more := by omega
      rw [rest]
  · have some : generator.unused = word key position :: words key (position + 1) count := by
      rw [unused, left, words_succ]
    simp only [Generator.next, some]
    refine ⟨trivial, sameKey, ?_, ?_⟩
    · dsimp only
      omega
    · have rest : 16 * generator.nextBlock - (position + 1) = count := by omega
      rw [rest]

theorem IsAt.draw (isAt : generator.IsAt key position) (count : Nat) :
    (generator.draw count).1 = words key position count ∧
      (generator.draw count).2.IsAt key (position + count) := by
  induction count generalizing generator position with
  | zero => exact ⟨rfl, isAt⟩
  | succ count induction =>
      obtain ⟨first, later⟩ := isAt.next
      obtain ⟨rest, last⟩ := induction later
      constructor
      · rw [Generator.draw, first, rest, words_succ]
      · rw [Nat.succ_add_eq_add_succ] at last
        exact last

end Generator

theorem components_eq_map (seed : UInt64) (position count : Nat) :
    components seed position count = (words (key seed) position count).map component := by
  rw [components, words, List.map_map]
  rfl

theorem components_add (seed : UInt64) (position first second : Nat) :
    components seed position (first + second) =
      components seed position first ++ components seed (position + first) second := by
  simp only [components_eq_map, words_add, List.map_append]

end Random

/-! ## Batches -/

namespace VectorBatch

open RangeRecall.Random (Generator)

variable {seed : UInt64} {position count dimension : Nat} {batch : VectorBatch}

def drawn (count dimension : Nat) (generator : Generator) : Attempt (VectorBatch × Generator) := do
  if wordLimit ≤ count * dimension then
    throw (.fault .arithmeticOverflow)
  reserve (count * dimension) 4
  let (words, later) := generator.draw (count * dimension)
  let batch ← ofComponents count dimension (words.map Random.component)
  return (batch, later)

theorem drawn_eq {generator : Generator} (isAt : generator.IsAt (Random.key seed) position)
    (count dimension : Nat) :
    drawn count dimension generator =
      (random seed position count dimension).map fun batch =>
        (batch, (generator.draw (count * dimension)).2) := by
  have words := (isAt.draw (count * dimension)).1
  rw [drawn, random, Random.components_eq_map, ← words]
  by_cases large : wordLimit ≤ count * dimension
  · rw [if_pos large, if_pos large]
    rfl
  · rw [if_neg large, if_neg large, reserve]
    split
    · dsimp only
      cases ofComponents count dimension _ <;> rfl
    · rfl

theorem exists_random_iff :
    (∃ batch, random seed position count dimension = .ok batch) ↔
      4 * (count * dimension) ≤ allocationLimit ∧ (dimension = 0 → count = 0) := by
  rw [random_eq]
  constructor
  · rintro ⟨batch, made⟩
    split at made
    · rename_i room
      refine ⟨room, ?_⟩
      obtain ⟨rfl, rfl, -⟩ := ofComponents_eq_ok (Failure.mapError_eq_ok_iff.mp made)
      exact batch.count_eq_zero
    · cases made
  · rintro ⟨room, positive⟩
    have size : (Random.components seed position (count * dimension)).length =
        count * dimension := by
      simp [Random.components]
    rw [if_pos room]
    refine ⟨⟨count, dimension, _, size, positive⟩, ?_⟩
    exact Failure.mapError_eq_ok_iff.mpr
      (ofComponents_eq_ok_iff.mpr ⟨lt_wordLimit_of_room room, rfl, rfl, rfl⟩)

theorem rows_of_random (made : random seed position count dimension = .ok batch) :
    batch.rows = (List.range count).map fun row =>
      Random.components seed (position + row * dimension) dimension := by
  obtain ⟨rfl, rfl, components⟩ := random_eq_ok made
  rw [rows_eq_map]
  apply List.map_congr_left
  intro index member
  obtain ⟨later, after⟩ := Nat.exists_eq_add_of_lt (List.mem_range.mp member)
  have split : batch.count * batch.dimension =
      index * batch.dimension + (batch.dimension + later * batch.dimension) := by
    rw [after, Nat.add_mul, Nat.add_mul, Nat.one_mul]
    omega
  rw [row, components, split, Random.components_add, Random.components_add]
  rw [List.drop_left' (by simp [Random.components]), List.take_left' (by simp [Random.components])]

theorem synthetic_prefix {fewer more : Nat} {few many : VectorBatch} (le : fewer ≤ more)
    (small : synthetic fewer dimension seed = .ok few)
    (large : synthetic more dimension seed = .ok many) : few.rows <+: many.rows := by
  obtain ⟨others, rfl⟩ := Nat.exists_eq_add_of_le le
  rw [rows_of_random small, rows_of_random large, List.range_add, List.map_append]
  exact List.prefix_append _ _

end VectorBatch

/-! ## Datasets -/

namespace Dataset

open RangeRecall.Random (Generator)

variable {baseCount queryCount dimension : Nat} {threshold : Binary32} {seed : UInt64}
  {dataset : Dataset}

def drawn (baseCount queryCount dimension : Nat) (threshold : Binary32) (generator : Generator) :
    Attempt Dataset := do
  let (base, later) ← VectorBatch.drawn baseCount dimension generator
  let (queries, _) ← VectorBatch.drawn queryCount dimension later
  let groundTruth ← GroundTruth.exact base queries threshold
  return { base := base, queries := queries, groundTruth := groundTruth }

theorem drawn_ofSeed (stride : Nat) (positive : 0 < stride) (baseCount queryCount dimension : Nat)
    (threshold : Binary32) (seed : UInt64) :
    drawn baseCount queryCount dimension threshold (.ofSeed stride positive seed) =
      generate baseCount queryCount dimension threshold seed := by
  have start := Generator.isAt_ofSeed stride positive seed
  have later := (start.draw (baseCount * dimension)).2
  rw [Nat.zero_add] at later
  rw [drawn, generate, VectorBatch.drawn_eq start]
  cases VectorBatch.random seed 0 baseCount dimension with
  | error => rfl
  | ok base =>
      change (VectorBatch.drawn queryCount dimension _ >>= _) = _
      rw [VectorBatch.drawn_eq later]
      cases VectorBatch.random seed (baseCount * dimension) queryCount dimension <;> rfl

theorem generate_eq_ok_iff :
    generate baseCount queryCount dimension threshold seed = .ok dataset ↔
      VectorBatch.random seed 0 baseCount dimension = .ok dataset.base ∧
        VectorBatch.random seed (baseCount * dimension) queryCount dimension = .ok dataset.queries ∧
        GroundTruth.exact dataset.base dataset.queries threshold = .ok dataset.groundTruth := by
  simp only [generate, Failure.bind_eq_ok_iff]
  constructor
  · rintro ⟨base, first, queries, second, truth, built, same⟩
    cases same
    exact ⟨first, second, built⟩
  · rintro ⟨first, second, built⟩
    exact ⟨_, first, _, second, _, built, rfl⟩

theorem rows_of_generate
    (generated : generate baseCount queryCount dimension threshold seed = .ok dataset) :
    dataset.base.rows ++ dataset.queries.rows = (List.range (baseCount + queryCount)).map fun row =>
      Random.components seed (row * dimension) dimension := by
  obtain ⟨first, second, -⟩ := generate_eq_ok_iff.mp generated
  rw [VectorBatch.rows_of_random first, VectorBatch.rows_of_random second, List.range_add,
    List.map_append, List.map_map]
  congr 1
  · apply List.map_congr_left
    intro row _
    rw [Nat.zero_add]
  · apply List.map_congr_left
    intro row _
    rw [Function.comp_apply, Nat.add_mul]

theorem exists_whole_iff
    (generated : generate baseCount queryCount dimension threshold seed = .ok dataset) :
    (∃ whole, VectorBatch.synthetic (baseCount + queryCount) dimension seed = .ok whole) ↔
      4 * ((baseCount + queryCount) * dimension) ≤ allocationLimit := by
  obtain ⟨first, second, -⟩ := generate_eq_ok_iff.mp generated
  have base := (VectorBatch.exists_random_iff.mp ⟨_, first⟩).2
  have queries := (VectorBatch.exists_random_iff.mp ⟨_, second⟩).2
  refine VectorBatch.exists_random_iff.trans (and_iff_left fun zero => ?_)
  rw [base zero, queries zero]

theorem exists_generate (positive : dimension ≠ 0)
    (baseRoom : 4 * (baseCount * dimension) ≤ allocationLimit)
    (queryRoom : 4 * (queryCount * dimension) ≤ allocationLimit)
    (pairs : queryCount * baseCount < fieldLimit) (threshold : Binary32) (seed : UInt64) :
    ∃ dataset, generate baseCount queryCount dimension threshold seed = .ok dataset := by
  obtain ⟨base, first⟩ := @VectorBatch.exists_random_iff seed 0 baseCount dimension |>.mpr
    ⟨baseRoom, fun zero => absurd zero positive⟩
  obtain ⟨queries, second⟩ :=
    @VectorBatch.exists_random_iff seed (baseCount * dimension) queryCount dimension |>.mpr
      ⟨queryRoom, fun zero => absurd zero positive⟩
  obtain ⟨rfl, baseDimension, -⟩ := VectorBatch.random_eq_ok first
  obtain ⟨rfl, queryDimension, -⟩ := VectorBatch.random_eq_ok second
  have few : GroundTruth.nearPairs base queries threshold ≤ queries.count * base.count := by
    rw [GroundTruth.nearPairs, List.length_flatMap]
    refine (List.sum_le_card_nsmul _ base.count fun length member => ?_).trans_eq ?_
    · obtain ⟨vector, -, rfl⟩ := List.mem_map.mp member
      exact DistanceMetric.length_nearRows_le
    · rw [List.length_map, queries.length_rows]
      rfl
  obtain ⟨truth, built⟩ := GroundTruth.exists_exact_iff.mpr
    ⟨.inr (.inr (baseDimension.trans queryDimension.symm)), Nat.lt_of_le_of_lt few pairs⟩
  exact ⟨⟨base, queries, truth⟩, generate_eq_ok_iff.mpr ⟨first, second, built⟩⟩

/-- One seed is one stream. A generator that computes any number of blocks at a time and is handed
from the base vectors to the queries gives the dataset of its seed, or fails like it. The base
vectors of a dataset are the batch of its seed, and followed by the queries they are the rows of the
larger batch of the same seed, which exists exactly if room for it can be reserved. So a larger
batch begins with the rows of a smaller one, and where the queries begin changes no row. -/
theorem one_stream_per_seed (dimension : Nat) (seed : UInt64) :
    (∀ stride positive baseCount queryCount threshold,
      drawn baseCount queryCount dimension threshold (.ofSeed stride positive seed) =
        generate baseCount queryCount dimension threshold seed) ∧
    (∀ baseCount queryCount threshold dataset,
      generate baseCount queryCount dimension threshold seed = .ok dataset →
        VectorBatch.synthetic baseCount dimension seed = .ok dataset.base ∧
        ((∃ whole, VectorBatch.synthetic (baseCount + queryCount) dimension seed = .ok whole) ↔
          4 * ((baseCount + queryCount) * dimension) ≤ allocationLimit) ∧
        ∀ whole, VectorBatch.synthetic (baseCount + queryCount) dimension seed = .ok whole →
          whole.rows = dataset.base.rows ++ dataset.queries.rows) ∧
    (∀ fewer more few many, fewer ≤ more →
      VectorBatch.synthetic fewer dimension seed = .ok few →
      VectorBatch.synthetic more dimension seed = .ok many → few.rows <+: many.rows) ∧
    ∀ baseCount queryCount threshold dataset otherBaseCount otherQueryCount otherThreshold other,
      baseCount + queryCount = otherBaseCount + otherQueryCount →
      generate baseCount queryCount dimension threshold seed = .ok dataset →
      generate otherBaseCount otherQueryCount dimension otherThreshold seed = .ok other →
        dataset.base.rows ++ dataset.queries.rows = other.base.rows ++ other.queries.rows := by
  refine ⟨fun stride positive _ _ _ => drawn_ofSeed stride positive _ _ _ _ _, ?_, ?_, ?_⟩
  · intro baseCount queryCount threshold dataset generated
    refine ⟨(generate_eq_ok_iff.mp generated).1, exists_whole_iff generated, ?_⟩
    intro whole drawn
    rw [rows_of_generate generated, VectorBatch.rows_of_random drawn]
    simp only [Nat.zero_add]
  · intro fewer more few many
    exact VectorBatch.synthetic_prefix
  · intro baseCount queryCount threshold dataset otherBaseCount otherQueryCount otherThreshold other
      same generated otherGenerated
    rw [rows_of_generate generated, rows_of_generate otherGenerated, same]

theorem five_rows_over_three_blocks :
    ∃ dataset whole, generate 3 2 7 ⟨0x3fc00000⟩ 42 = .ok dataset ∧
      drawn 3 2 7 ⟨0x3fc00000⟩ (.ofSeed 4 (Nat.succ_pos 3) 42) = .ok dataset ∧
      VectorBatch.synthetic 3 7 42 = .ok dataset.base ∧
      VectorBatch.synthetic 5 7 42 = .ok whole ∧
      whole.rows = dataset.base.rows ++ dataset.queries.rows ∧
      dataset.base.rows <+: whole.rows := by
  obtain ⟨inTurn, wholes, prefixes, -⟩ := one_stream_per_seed 7 42
  obtain ⟨dataset, generated⟩ :=
    @exists_generate 3 2 7 (by decide) (by decide) (by decide) (by decide) ⟨0x3fc00000⟩ 42
  obtain ⟨base, room, joined⟩ := wholes 3 2 _ dataset generated
  obtain ⟨whole, drawn⟩ := room.mpr (by decide)
  exact ⟨dataset, whole, generated, (inTurn 4 _ 3 2 _).trans generated, base, drawn,
    joined whole drawn, prefixes 3 5 _ _ (by decide) base drawn⟩

end Dataset

end RangeRecall
