import RangeRecall.Proofs.Synthetic.Stream

/-! Shapes that cannot be drawn. A batch checks its shape when it is given its components, but to
draw them they must be counted and given room before. So rows without components are reported, and
a number of components that is no word is not: counting faults before the check can report it. -/

namespace RangeRecall

namespace VectorBatch

variable {seed : UInt64} {position count dimension : Nat} {cause : FormatError}
  {failure : Failure Error}

/-! ## Shapes without batches -/

/-- Why no components make a batch of the shape: its rows have none, or their number is no word. -/
inductive BadShape (count dimension : Nat) : FormatError → Prop
  | flat (zero : dimension = 0) (some : 0 < count) : BadShape count dimension (.zeroDimension count)
  | tooLarge (large : wordLimit ≤ count * dimension) :
      BadShape count dimension (.shapeOverflow count dimension)

theorem dimension_ne_zero_of_large (large : wordLimit ≤ count * dimension) : dimension ≠ 0 := by
  rintro rfl
  rw [Nat.mul_zero] at large
  exact absurd large (by decide)

theorem ofComponents_of_badShape (bad : BadShape count dimension cause)
    (components : List Binary32) :
    ofComponents count dimension components = .error (.format cause) := by
  cases bad with
  | flat zero some => rw [ofComponents, dif_pos ⟨zero, some⟩]
  | tooLarge large =>
      have notFlat : ¬(dimension = 0 ∧ 0 < count) :=
        fun flat => dimension_ne_zero_of_large large flat.1
      rw [ofComponents, dif_neg notFlat, if_pos large]

theorem badShape_iff :
    BadShape count dimension cause ↔
      ∀ components, ofComponents count dimension components = .error (.format cause) := by
  refine ⟨ofComponents_of_badShape, fun refused => ?_⟩
  -- Components that fill the shape can only be refused for the shape.
  have filled := refused (List.replicate (count * dimension) ⟨0⟩)
  unfold ofComponents at filled
  split at filled
  · rename_i flat
    cases filled
    exact .flat flat.1 flat.2
  · split at filled
    · rename_i large
      cases filled
      exact .tooLarge large
    · rw [dif_pos List.length_replicate] at filled
      cases filled

/-! ## Failures -/

/-- How drawing a batch of the shape fails. The components are counted and room for them is
reserved first, and only then is the shape checked. -/
inductive DrawFailure (count dimension : Nat) : Failure Error → Prop
  | overflow (large : wordLimit ≤ count * dimension) :
      DrawFailure count dimension (.fault .arithmeticOverflow)
  | noRoom (word : count * dimension < wordLimit)
      (large : allocationLimit < 4 * (count * dimension)) :
      DrawFailure count dimension (.fault .capacityExceeded)
  | flat (zero : dimension = 0) (some : 0 < count) :
      DrawFailure count dimension (.error (.format (.zeroDimension count)))

theorem random_of_drawFailure (fails : DrawFailure count dimension failure) :
    random seed position count dimension = .error failure := by
  rw [random_eq]
  cases fails with
  | overflow large =>
      have noRoom : ¬4 * (count * dimension) ≤ allocationLimit :=
        fun room => Nat.not_le.mpr (lt_wordLimit_of_room room) large
      rw [if_neg noRoom, if_pos large]
  | noRoom word large => rw [if_neg (Nat.not_le.mpr large), if_neg (Nat.not_le.mpr word)]
  | flat zero some =>
      have room : 4 * (count * dimension) ≤ allocationLimit := by
        rw [zero]
        exact Nat.zero_le _
      rw [if_pos room, ofComponents_of_badShape (.flat zero some), Failure.mapError_error]

theorem random_eq_error_iff :
    random seed position count dimension = .error failure ↔
      DrawFailure count dimension failure := by
  refine ⟨fun failed => ?_, random_of_drawFailure⟩
  obtain ⟨other, fails⟩ : ∃ other, DrawFailure count dimension other := by
    by_cases word : count * dimension < wordLimit
    · by_cases room : 4 * (count * dimension) ≤ allocationLimit
      · by_cases flat : dimension = 0 ∧ 0 < count
        · exact ⟨_, .flat flat.1 flat.2⟩
        · obtain ⟨batch, drawn⟩ := @exists_random_iff seed position count dimension |>.mpr
            ⟨room, by omega⟩
          cases drawn.symm.trans failed
      · exact ⟨_, .noRoom word (Nat.lt_of_not_le room)⟩
    · exact ⟨_, .overflow (Nat.le_of_not_lt word)⟩
  cases (random_of_drawFailure fails).symm.trans failed
  exact fails

theorem drawFailure_of_badShape (bad : BadShape count dimension cause) :
    DrawFailure count dimension
      (if count * dimension < wordLimit then .error (.format cause)
        else .fault .arithmeticOverflow) := by
  cases bad with
  | flat zero some =>
      have word : count * dimension < wordLimit :=
        Nat.lt_of_not_le fun large => dimension_ne_zero_of_large large zero
      rw [if_pos word]
      exact .flat zero some
  | tooLarge large =>
      rw [if_neg (Nat.not_lt.mpr large)]
      exact .overflow large

end VectorBatch

/-! ## Datasets -/

namespace Dataset

open VectorBatch (BadShape DrawFailure)

variable {baseCount queryCount dimension : Nat} {threshold : Binary32} {seed : UInt64}
  {failure : Failure Error}

inductive GenerationFailure (baseCount queryCount dimension : Nat) (threshold : Binary32)
    (seed : UInt64) : Failure Error → Prop
  | base {failure : Failure Error} (fails : DrawFailure baseCount dimension failure) :
      GenerationFailure baseCount queryCount dimension threshold seed failure
  | queries {failure : Failure Error} {base : VectorBatch}
      (drawn : VectorBatch.random seed 0 baseCount dimension = .ok base)
      (fails : DrawFailure queryCount dimension failure) :
      GenerationFailure baseCount queryCount dimension threshold seed failure
  | neighbors {base queries : VectorBatch}
      (drawn : VectorBatch.random seed 0 baseCount dimension = .ok base)
      (drawnBehind : VectorBatch.random seed (baseCount * dimension) queryCount dimension =
        .ok queries)
      (tooMany : fieldLimit ≤ GroundTruth.nearPairs base queries threshold) :
      GenerationFailure baseCount queryCount dimension threshold seed
        (.error (.invalidParameter .tooManyNeighbors))

theorem dimension_eq_of_drawn {base queries : VectorBatch}
    (drawn : VectorBatch.random seed 0 baseCount dimension = .ok base)
    (drawnBehind : VectorBatch.random seed (baseCount * dimension) queryCount dimension =
      .ok queries) : base.dimension = queries.dimension := by
  obtain ⟨-, dimension, -⟩ := VectorBatch.random_eq_ok drawn
  obtain ⟨-, dimensionBehind, -⟩ := VectorBatch.random_eq_ok drawnBehind
  exact dimension.trans dimensionBehind.symm

theorem generate_eq_error_iff :
    generate baseCount queryCount dimension threshold seed = .error failure ↔
      GenerationFailure baseCount queryCount dimension threshold seed failure := by
  simp only [generate, Failure.bind_eq_error_iff, VectorBatch.random_eq_error_iff]
  constructor
  · rintro (fails | ⟨base, drawn, fails | ⟨queries, drawnBehind, fails | ⟨truth, _, fails⟩⟩⟩)
    · exact .base fails
    · exact .queries drawn fails
    · have same := dimension_eq_of_drawn drawn drawnBehind
      obtain ⟨tooMany, rfl⟩ := (GroundTruth.exact_eq_error_iff (.inr (.inr same))).mp fails
      exact .neighbors drawn drawnBehind tooMany
    · cases fails
  · intro fails
    cases fails with
    | base fails => exact .inl fails
    | queries drawn fails => exact .inr ⟨_, drawn, .inl fails⟩
    | neighbors drawn drawnBehind tooMany =>
        have same := dimension_eq_of_drawn drawn drawnBehind
        have refused := (GroundTruth.exact_eq_error_iff (.inr (.inr same))).mpr ⟨tooMany, rfl⟩
        exact .inr ⟨_, drawn, .inr ⟨_, drawnBehind, .inl refused⟩⟩

theorem generate_of_flat (zero : dimension = 0) (some : 0 < baseCount + queryCount) :
    generate baseCount queryCount dimension threshold seed =
      .error (.error (.format (.zeroDimension
        (if baseCount = 0 then queryCount else baseCount)))) := by
  rw [generate_eq_error_iff]
  split
  · rename_i none
    obtain ⟨base, drawn⟩ := @VectorBatch.exists_random_iff seed 0 baseCount dimension |>.mpr
      ⟨by rw [zero]; exact Nat.zero_le _, fun _ => none⟩
    exact .queries drawn (.flat zero (by omega))
  · rename_i positive
    exact .base (.flat zero (Nat.pos_of_ne_zero positive))

theorem generate_of_large
    (large : wordLimit ≤ baseCount * dimension ∨ wordLimit ≤ queryCount * dimension) :
    ∃ fault, generate baseCount queryCount dimension threshold seed = .error (.fault fault) := by
  by_cases word : baseCount * dimension < wordLimit
  · by_cases room : 4 * (baseCount * dimension) ≤ allocationLimit
    · have behind := large.resolve_left (Nat.not_le.mpr word)
      obtain ⟨base, drawn⟩ := @VectorBatch.exists_random_iff seed 0 baseCount dimension |>.mpr
        ⟨room, fun zero => absurd zero (VectorBatch.dimension_ne_zero_of_large behind)⟩
      exact ⟨_, generate_eq_error_iff.mpr (.queries drawn (.overflow behind))⟩
    · exact ⟨_, generate_eq_error_iff.mpr (.base (.noRoom word (Nat.lt_of_not_le room)))⟩
  · exact ⟨_, generate_eq_error_iff.mpr (.base (.overflow (Nat.le_of_not_lt word)))⟩

/-- A shape is bad if it is the reason to refuse all components. Drawing a bad shape never
succeeds. It ends in the report that components of the shape would be refused with, as long as
their number is a word, that is if the rows have no components; otherwise it faults, and the report
is never given. The same holds of a dataset if one of its two shapes is bad. Nothing else fails but
what no room can be reserved for, and a dataset with too many neighbors. -/
theorem bad_shapes_reported_if_flat (dimension : Nat) (seed : UInt64) :
    (∀ count cause, BadShape count dimension cause ↔ ∀ components,
      VectorBatch.ofComponents count dimension components = .error (.format cause)) ∧
    (∀ count,
      (∀ failure, VectorBatch.synthetic count dimension seed = .error failure ↔
        DrawFailure count dimension failure) ∧
      ∀ cause, BadShape count dimension cause →
        VectorBatch.synthetic count dimension seed =
          .error (if count * dimension < wordLimit then .error (.format cause)
            else .fault .arithmeticOverflow)) ∧
    ∀ baseCount queryCount threshold,
      let generated := generate baseCount queryCount dimension threshold seed
      (∀ failure, generated = .error failure ↔
        GenerationFailure baseCount queryCount dimension threshold seed failure) ∧
      (dimension = 0 → 0 < baseCount + queryCount →
        generated = .error (.error (.format (.zeroDimension
          (if baseCount = 0 then queryCount else baseCount))))) ∧
      (wordLimit ≤ baseCount * dimension ∨ wordLimit ≤ queryCount * dimension →
        ∃ fault, generated = .error (.fault fault)) := by
  refine ⟨fun _ _ => VectorBatch.badShape_iff, ?batches, ?datasets⟩
  case batches =>
    intro count
    exact ⟨fun _ => VectorBatch.random_eq_error_iff, fun _ bad =>
      VectorBatch.random_of_drawFailure (VectorBatch.drawFailure_of_badShape bad)⟩
  case datasets =>
    intro baseCount queryCount threshold generated
    exact ⟨fun _ => generate_eq_error_iff, generate_of_flat, generate_of_large⟩

/-- Four rows without components are reported, and so are two queries without components behind no
base vectors. As many rows of as many components as there are four-byte words cannot be counted:
components of this shape would be refused with a report, but drawing them faults. So do queries
that cannot be counted behind three base vectors that can. -/
theorem flat_and_uncountable_shapes :
    VectorBatch.synthetic 4 0 7 = .error (.error (.format (.zeroDimension 4))) ∧
      generate 0 2 0 ⟨0⟩ 7 = .error (.error (.format (.zeroDimension 2))) ∧
      VectorBatch.ofComponents 4294967296 4294967296 [] =
        .error (.format (.shapeOverflow 4294967296 4294967296)) ∧
      VectorBatch.synthetic 4294967296 4294967296 1 = .error (.fault .arithmeticOverflow) ∧
      ∃ fault, generate 3 9223372036854775808 2 ⟨0⟩ 1 = .error (.fault fault) := by
  obtain ⟨-, flatDraws, flatDatasets⟩ := bad_shapes_reported_if_flat 0 7
  obtain ⟨refuses, draws, -⟩ := bad_shapes_reported_if_flat 4294967296 1
  obtain ⟨-, -, datasets⟩ := bad_shapes_reported_if_flat 2 1
  have flat : BadShape 4 0 (.zeroDimension 4) := .flat rfl (by decide)
  have large : BadShape 4294967296 4294967296 (.shapeOverflow 4294967296 4294967296) :=
    .tooLarge (by decide)
  have reported := (flatDraws 4).2 _ flat
  have faulted := (draws 4294967296).2 _ large
  rw [if_pos (by decide)] at reported
  rw [if_neg (by decide)] at faulted
  exact ⟨reported, (flatDatasets 0 2 ⟨0⟩).2.1 rfl (by decide), (refuses _ _).mp large [], faulted,
    (datasets 3 _ ⟨0⟩).2.2 (.inr (by decide))⟩

end Dataset

end RangeRecall
