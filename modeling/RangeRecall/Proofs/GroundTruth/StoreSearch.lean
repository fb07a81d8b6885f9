import Mathlib.Data.List.Forall2
import RangeRecall.Proofs.GroundTruth.NearRows

/-! The exact ground truth and the search of a store are one relation. For vectors that can be
measured against each other, a row of the ground truth lists exactly the rows measured to be nearer
than the threshold, in order and with what was measured, and a store over the same batch answers
with the same rows in the same order, numbered from its own first identifier on. -/

namespace RangeRecall

open DistanceMetric

variable {base queries : VectorBatch} {threshold : Binary32} {vector : List Binary32}

theorem VectorBatch.map_toNat_nearRows (rowsFit : base.count ≤ fieldLimit) :
    ((euclidean.nearRows threshold vector base).map UInt32.ofNat).map UInt32.toNat =
      euclidean.nearRows threshold vector base :=
  GroundTruth.map_toNat_ofNat_of_lt fun _ near =>
    Nat.lt_of_lt_of_le (mem_nearRows.mp near).1 rowsFit

theorem MemoryStore.rangeSearch_numbers (idBase : UInt64)
    (comparable : ∀ other ∈ base.rows, vector.length = other.length)
    (numbered : ∀ row ∈ euclidean.nearRows threshold vector base,
      row + idBase.toNat < wordLimit) :
    ∃ found,
      ({ base := base, idBase := idBase } : MemoryStore).rangeSearch vector threshold =
        .ok found ∧
      found.map UInt64.toNat =
        (euclidean.nearRows threshold vector base).map (· + idBase.toNat) := by
  refine ⟨_, rangeSearch_eq comparable numbered, ?_⟩
  rw [List.map_map]
  exact List.map_congr_left fun row near => UInt64.toNat_ofNat_of_lt' (numbered row near)

theorem GroundTruth.forall₂_measuresRow
    (comparable : ∀ other ∈ base.rows, vector.length = other.length)
    (rowsFit : base.count ≤ fieldLimit) :
    List.Forall₂ (fun (id : UInt32) distance =>
        euclidean.MeasuresRow vector base id.toNat distance)
      ((euclidean.nearRows threshold vector base).map UInt32.ofNat)
      ((euclidean.nearRows threshold vector base).map fun row =>
        euclidean.measure vector (base.row row)) := by
  rw [List.forall₂_map_left_iff, List.forall₂_map_right_iff, List.forall₂_same]
  intro row near
  have inside := (mem_nearRows.mp near).1
  rw [UInt32.toNat_ofNat_of_lt' (Nat.lt_of_lt_of_le inside rowsFit), measuresRow_iff comparable]
  exact ⟨inside, rfl⟩

/-- Batches of different dimensions are refused unless one of them is empty. Others have an exact
ground truth unless there are too many near pairs. It has one row for each query, which lists in
ascending order exactly the rows of the base that are measured to be nearer than the threshold,
beside their distances, and a store that numbers its rows from any identifier on finds the same
rows in the same order if none of their identifiers overflows. -/
theorem GroundTruth.exact_rows_are_searched (base queries : VectorBatch) (threshold : Binary32)
    (rowsFit : base.count ≤ fieldLimit) :
    let agrees := base.count = 0 ∨ queries.count = 0 ∨ base.dimension = queries.dimension
    (¬agrees → exact base queries threshold = .error (.error
      (.invalidParameter (.dimensionMismatch base.dimension queries.dimension)))) ∧
    (agrees → fieldLimit ≤ nearPairs base queries threshold →
      exact base queries threshold = .error (.error (.invalidParameter .tooManyNeighbors))) ∧
    (agrees → nearPairs base queries threshold < fieldLimit →
      ∃ truth, exact base queries threshold = .ok truth ∧ truth.threshold = threshold ∧
        truth.queryCount = queries.count ∧
        ∀ query vector, queries.rows[query]? = some vector →
          ∃ ids distances, truth.neighbors query = .ok ids ∧
            truth.distances query = .ok distances ∧
            ids.Pairwise (· < ·) ∧
            (∀ row, (∃ id ∈ ids, id.toNat = row) ↔
              ∃ distance, euclidean.MeasuresRow vector base row distance ∧
                distance.isLess threshold = true) ∧
            List.Forall₂ (fun id distance =>
              euclidean.MeasuresRow vector base id.toNat distance) ids distances ∧
            ∀ idBase : UInt64, (∀ id ∈ ids, id.toNat + idBase.toNat < wordLimit) →
              ∃ found,
                ({ base := base, idBase := idBase } : MemoryStore).rangeSearch vector threshold =
                  .ok found ∧
                found.map UInt64.toNat = ids.map fun id => id.toNat + idBase.toNat) := by
  intro agrees
  refine ⟨exact_of_mismatch, exact_of_tooMany, fun agree fits => ?_⟩
  obtain ⟨truth, built⟩ := exists_exact_iff.mpr ⟨agree, fits⟩
  refine ⟨truth, built, (ofRows_eq_ok (ofRows_of_exact_eq_ok built)).2.1,
    queryCount_exact built, fun query vector isQuery => ?_⟩
  have comparable := comparable_of_exact built isQuery
  have numbers := @VectorBatch.map_toNat_nearRows base threshold vector rowsFit
  obtain ⟨neighbors, distances⟩ := row_of_exact built isQuery
  refine ⟨_, _, neighbors, distances, ?ascending, ?near,
    forall₂_measuresRow comparable rowsFit, ?search⟩
  case ascending =>
    have ascends := @pairwise_nearRows euclidean threshold vector base
    rw [← numbers, List.pairwise_map] at ascends
    exact ascends.imp UInt32.lt_iff_toNat_lt.mpr
  case near =>
    intro row
    rw [← List.mem_map, numbers, mem_nearRows_iff comparable]
  case search =>
    intro idBase fit
    have numbered : ∀ row ∈ euclidean.nearRows threshold vector base,
        row + idBase.toNat < wordLimit := by
      rw [← numbers]
      exact List.forall_mem_map.mpr fit
    obtain ⟨found, searched, sums⟩ := MemoryStore.rangeSearch_numbers idBase comparable numbered
    rw [← numbers, List.map_map] at sums
    exact ⟨found, searched, sums⟩

theorem GroundTruth.four_points_numbered_from_ten :
    let base := Benchmark.onLine [⟨0x40400000⟩, ⟨0⟩, ⟨0x3f800000⟩, ⟨0x40000000⟩]
    let queries := Benchmark.onLine [⟨0⟩, ⟨0x7fc00000⟩]
    ∃ truth ids found, exact base queries ⟨0x40000000⟩ = .ok truth ∧ truth.queryCount = 2 ∧
      truth.neighbors 0 = .ok ids ∧ (∃ id ∈ ids, id.toNat = 2) ∧ (¬∃ id ∈ ids, id.toNat = 3) ∧
      ({ base := base, idBase := 10 } : MemoryStore).rangeSearch [⟨0⟩] ⟨0x40000000⟩ =
        .ok found ∧
      found.map UInt64.toNat = ids.map fun id => id.toNat + 10 := by
  intro base queries
  obtain ⟨-, -, built⟩ := exact_rows_are_searched base queries ⟨0x40000000⟩ (by decide)
  obtain ⟨truth, isTruth, -, count, rows⟩ := built (.inr (.inr rfl)) (by decide +kernel)
  have isQuery : queries.rows[0]? = some [⟨0⟩] := rfl
  obtain ⟨ids, _, neighbors, -, -, near, -, searched⟩ := rows 0 [⟨0⟩] isQuery
  have comparable := comparable_of_exact isTruth isQuery
  have small : ∀ id ∈ ids, id.toNat + (10 : UInt64).toNat < wordLimit := by
    intro id _
    have bound := id.toNat_lt
    have ten : (10 : UInt64).toNat = 10 := rfl
    rw [ten, wordLimit]
    omega
  obtain ⟨found, isFound, sums⟩ := searched 10 small
  refine ⟨truth, ids, found, isTruth, count, neighbors, (near 2).mpr ?_, fun listed => ?_, isFound,
    sums⟩
  · exact (mem_nearRows_iff comparable).mp (by decide +kernel)
  · exact absurd ((mem_nearRows_iff comparable).mpr ((near 3).mp listed)) (by decide +kernel)

end RangeRecall
