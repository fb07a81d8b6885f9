import RangeRecall.Proofs.Files.Content
import RangeRecall.Proofs.GroundTruth.Reading
import RangeRecall.Proofs.Vector.Encoding

/-! Batches and ground truths in files. Either is loaded from a file exactly if its encoding is
there, so what has been saved at two paths that lead to different places comes back from both. -/

namespace RangeRecall

namespace FileTree

variable {tree next : FileTree} {path : String} {batch : VectorBatch} {truth : GroundTruth}

/-! ## One file -/

theorem saveWritten_eq_ok_iff {writer : Sink → Except Error Unit × Sink} :
    tree.saveWritten path writer = (.ok (), next) ↔
      ∃ content, (∃ sink, writer {} = (.ok (), sink) ∧ sink.contents = content) ∧
        tree.write path content = .ok next := by
  rw [saveWritten]
  rcases writer {} with ⟨result, sink⟩
  dsimp only
  constructor
  · intro saved
    rcases written : tree.save path sink.contents with error | reached
    · rw [written] at saved
      cases saved
    · rw [written] at saved
      cases saved
      exact ⟨_, ⟨sink, rfl, rfl⟩, save_eq_ok_iff.mp written⟩
  · rintro ⟨_, ⟨_, same, rfl⟩, written⟩
    cases same
    rw [save_eq_ok_iff.mpr written]

theorem saveBatch_eq_ok_iff :
    tree.saveBatch path batch = (.ok (), next) ↔
      ∃ content, batch.Encodes content ∧ tree.write path content = .ok next :=
  saveWritten_eq_ok_iff

theorem saveGroundTruth_eq_ok_iff :
    tree.saveGroundTruth path truth = (.ok (), next) ↔
      ∃ content, truth.Encodes content ∧ tree.write path content = .ok next :=
  saveWritten_eq_ok_iff

theorem loadBatch_eq_ok_iff {requireNonEmpty : Bool} :
    tree.loadBatch path requireNonEmpty = .ok batch ↔
      ∃ content, tree.read path = .ok content ∧ batch.Encodes content ∧
        (requireNonEmpty → 0 < batch.count ∧ 0 < batch.dimension) := by
  rw [loadBatch, Failure.bind_eq_ok_iff]
  refine exists_congr fun content => and_congr load_eq_ok_iff ?_
  rw [Failure.bind_eq_ok_iff]
  constructor
  · rintro ⟨⟨_, source⟩, accepted, same⟩
    cases same
    have reading := (VectorBatch.read_eq_ok_iff (Source.ofBytes_reliable content)).mp accepted
    exact ⟨reading.1, reading.2.2⟩
  · rintro ⟨encodes, nonEmpty⟩
    exact ⟨_, (VectorBatch.read_eq_ok_iff (Source.ofBytes_reliable content)).mpr
      ⟨encodes, rfl, nonEmpty⟩, rfl⟩

theorem loadGroundTruth_eq_ok_iff :
    tree.loadGroundTruth path = .ok truth ↔
      ∃ content rest, tree.read path = .ok (content ++ rest) ∧ truth.Encodes content := by
  rw [loadGroundTruth, Failure.bind_eq_ok_iff]
  constructor
  · rintro ⟨held, loaded, rest⟩
    rcases Failure.bind_eq_ok_iff.mp rest with ⟨⟨_, source⟩, accepted, same⟩
    cases same
    rcases (GroundTruth.read_eq_ok_iff (Source.ofBytes_reliable held)).mp accepted with
      ⟨content, rest, encodes, ahead, -⟩
    have split : held = content ++ rest := ahead
    exact ⟨content, rest, split ▸ load_eq_ok_iff.mp loaded, encodes⟩
  · rintro ⟨content, rest, held, encodes⟩
    have accepted := (GroundTruth.read_eq_ok_iff (Source.ofBytes_reliable (content ++ rest))).mpr
      ⟨content, rest, encodes, rfl, rfl⟩
    exact ⟨content ++ rest, load_eq_ok_iff.mpr held,
      Failure.bind_eq_ok_iff.mpr ⟨_, accepted, rfl⟩⟩

/-! ## Two files -/

/-- A file can be written at either path, and neither of the two is in the place of the other. -/
structure TakesBoth (tree : FileTree) (path otherPath : String) : Prop where
  writable : ∃ next, tree.write path [] = .ok next
  otherWritable : ∃ next, tree.write otherPath [] = .ok next
  apart : ∀ place, tree.locate path = .ok place → tree.locate otherPath ≠ .ok place

theorem exists_write (writable : ∃ next, tree.write path [] = .ok next) (content : List UInt8) :
    ∃ next, tree.write path content = .ok next := by
  rcases writable with ⟨_, written⟩
  rcases write_eq_ok_iff.mp written with ⟨place, located, noSlash, free, -⟩
  exact ⟨_, write_eq_ok_iff.mpr ⟨place, located, noSlash, free, rfl⟩⟩

theorem apart_of_write {otherPath written : String} {content : List UInt8}
    (apart : ∀ place, tree.locate path = .ok place → tree.locate otherPath ≠ .ok place)
    (leads : ∃ place, tree.locate path = .ok place)
    (leadsOther : ∃ place, tree.locate otherPath = .ok place)
    (wrote : tree.write written content = .ok next) (place : Place)
    (located : next.locate otherPath = .ok place) : next.locate path ≠ .ok place := by
  rcases write_eq_ok_iff.mp wrote with ⟨_, _, _, free, rfl⟩
  rcases leads with ⟨first, led⟩
  rcases leadsOther with ⟨second, ledOther⟩
  have kept := (keepsDirectories_put free (.file content)).locate led
  have keptOther := (keepsDirectories_put free (.file content)).locate ledOther
  intro same
  have isFirst : first = place := Except.ok.inj (kept.symm.trans same)
  have isSecond : second = place := Except.ok.inj (keptOther.symm.trans located)
  exact apart first led (isFirst.trans isSecond.symm ▸ ledOther)

theorem exists_saved_inputs {otherPath : String} (takes : tree.TakesBoth path otherPath)
    (countFits : batch.count < fieldLimit) (dimensionFits : batch.dimension < fieldLimit)
    (nonEmpty : 0 < batch.count) (queriesFit : truth.queryCount < fieldLimit) :
    ∃ withBatch files,
      tree.saveBatch path batch = (.ok (), withBatch) ∧
      withBatch.saveGroundTruth otherPath truth = (.ok (), files) ∧
      files.loadBatch path true = .ok batch ∧
      files.loadGroundTruth otherPath = .ok truth := by
  have batchEncodes := VectorBatch.encodes_iff.mpr ⟨countFits, dimensionFits, rfl⟩
  have truthEncodes := GroundTruth.encodes_iff.mpr ⟨queriesFit, rfl⟩
  have components : 0 < batch.dimension := by
    refine Nat.pos_of_ne_zero fun flat => ?_
    exact Nat.ne_of_gt nonEmpty (batch.count_eq_zero flat)
  rcases exists_write takes.writable batch.encode with ⟨withBatch, wrote⟩
  rcases exists_write takes.otherWritable truth.encode with ⟨_, free⟩
  rcases write_after_write wrote free with ⟨files, wroteOther⟩
  have leads : ∃ place, tree.locate path = .ok place :=
    (write_eq_ok_iff.mp wrote).imp fun _ parts => parts.1
  have leadsOther : ∃ place, tree.locate otherPath = .ok place :=
    (write_eq_ok_iff.mp free).imp fun _ parts => parts.1
  have kept : files.read path = .ok batch.encode :=
    read_write_of_ne wroteOther (read_write wrote)
      (apart_of_write takes.apart leads leadsOther wrote)
  have held : files.read otherPath = .ok (truth.encode ++ []) := by
    rw [List.append_nil]
    exact read_write wroteOther
  exact ⟨withBatch, files, saveBatch_eq_ok_iff.mpr ⟨_, batchEncodes, wrote⟩,
    saveGroundTruth_eq_ok_iff.mpr ⟨_, truthEncodes, wroteOther⟩,
    loadBatch_eq_ok_iff.mpr ⟨_, kept, batchEncodes, fun _ => ⟨nonEmpty, components⟩⟩,
    loadGroundTruth_eq_ok_iff.mpr ⟨_, [], held, truthEncodes⟩⟩

end FileTree

end RangeRecall
