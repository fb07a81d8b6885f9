import RangeRecall.Files.Tree
import RangeRecall.Proofs.Failure

/-! Files in a tree. Where a path leads depends on the directories alone, and writing a file keeps
all of them. A file is therefore read back at the path where it was written, and it stays as it is
while files are written at other places. -/

namespace RangeRecall

/-! ## Names in paths -/

namespace PathText

/-- The text is one name, which leads from a directory to an entry of it. -/
structure IsEntryName (name : String) : Prop where
  notEmpty : name ≠ ""
  noSlash : '/' ∉ name.toList
  notSame : name ≠ sameDirectory
  notAbove : name ≠ directoryAbove

theorem parts_of_noSlash {text : List Char} (noSlash : '/' ∉ text) : parts text = [text] := by
  induction text with
  | nil => rfl
  | cons character rest induction =>
      rw [List.mem_cons, not_or] at noSlash
      rw [parts, if_neg (fun slash => noSlash.1 slash.symm), induction noSlash.2]

theorem names_append_slash {path : String} {left right : List Char}
    (split : path.toList = left ++ '/' :: right) :
    names path = names (String.ofList left) ++ names (String.ofList right) := by
  simp only [names, split, parts_append_slash, List.filter_append, List.map_append,
    String.toList_ofList]

theorem names_of_isEntryName {name : String} (isName : IsEntryName name) :
    names name = [name] := by
  have notNil : name.toList ≠ [] := fun empty =>
    isName.notEmpty (String.toList_eq_nil_iff.mp empty)
  simp [names, parts_of_noSlash isName.noSlash, notNil]

theorem names_empty : names "" = [] := by decide

theorem toList_of_endsInSlash {path : String} (ends : endsInSlash path) :
    path.toList = path.toList.dropLast ++ ['/'] := by
  have last : path.toList.getLast? = some '/' := of_decide_eq_true ends
  rcases List.getLast?_eq_some_iff.mp last with ⟨before, split⟩
  rw [split, List.dropLast_concat]

theorem names_entryIn {name : String} (directory : String) (isName : IsEntryName name) :
    names (entryIn directory name) = names directory ++ [name] := by
  have last := names_of_isEntryName isName
  unfold entryIn
  split
  · rename_i adjoining
    rcases adjoining with rfl | ends
    · rw [String.empty_append, names_empty, List.nil_append, last]
    · have directorySplit := toList_of_endsInSlash ends
      have wholeSplit : (directory ++ name).toList =
          directory.toList.dropLast ++ '/' :: name.toList := by
        rw [String.toList_append]
        conv => lhs; rw [directorySplit]
        rw [List.append_assoc, List.singleton_append]
      rw [names_append_slash directorySplit, names_append_slash wholeSplit, String.ofList_toList,
        last]
      change _ = _ ++ names "" ++ _
      rw [names_empty, List.append_nil]
  · have wholeSplit : (directory ++ "/" ++ name).toList =
        directory.toList ++ '/' :: name.toList := by
      rw [String.toList_append, String.toList_append, List.append_assoc]
      rfl
    rw [names_append_slash wholeSplit, String.ofList_toList, String.ofList_toList, last]

theorem isAbsolute_entryIn {name : String} (directory : String) (isName : IsEntryName name) :
    isAbsolute (entryIn directory name) = isAbsolute directory := by
  by_cases empty : directory = ""
  · have relative : name.toList.head? ≠ some '/' := fun first =>
      isName.noSlash (List.mem_of_head? first)
    subst empty
    simp [entryIn, isAbsolute, relative]
  · have notNil : directory.toList ≠ [] := fun nil => empty (String.toList_eq_nil_iff.mp nil)
    have first (rest : List Char) : (directory.toList ++ rest).head? = directory.toList.head? := by
      rw [List.head?_append, List.head?_eq_some_head notNil, Option.some_or]
    unfold entryIn
    split
    · simp only [isAbsolute, String.toList_append, first]
    · simp only [isAbsolute, String.toList_append, List.append_assoc, first]

end PathText

namespace FileTree

variable {tree next : FileTree} {place other : Place} {path : String} {content old : List UInt8}

/-! ## Entries -/

theorem lookup_filter_ne (differ : other ≠ place) (entries : List (Place × FileEntry)) :
    (entries.filter fun entry => entry.1 ≠ place).lookup other = entries.lookup other := by
  induction entries with
  | nil => rfl
  | cons entry rest induction =>
      by_cases removed : entry.1 = place
      · have elsewhere : (other == entry.1) = false :=
          beq_false_of_ne (fun same => differ (same.trans removed))
        rw [List.filter_cons_of_neg (by simp [removed]), induction, List.lookup_cons, elsewhere]
      · rw [List.filter_cons_of_pos (by simp [removed]), List.lookup_cons, List.lookup_cons,
          induction]

theorem entryAt?_put_self (inside : place.names ≠ []) (tree : FileTree) (entry : FileEntry) :
    FileTree.entryAt? (tree.put place entry) place = some entry := by
  rw [entryAt?, if_neg inside, put, List.lookup_cons_self]

theorem entryAt?_put_of_ne (differ : other ≠ place) (tree : FileTree) (entry : FileEntry) :
    FileTree.entryAt? (tree.put place entry) other = tree.entryAt? other := by
  have elsewhere : (other == place) = false := beq_false_of_ne differ
  simp only [entryAt?, put, List.lookup_cons, elsewhere, lookup_filter_ne differ]

/-! ## Directories -/

def KeepsDirectories (tree next : FileTree) : Prop :=
  ∀ place, tree.entryAt? place = some .directory → next.entryAt? place = some .directory

theorem keepsDirectories_put (free : tree.entryAt? place ≠ some .directory) (entry : FileEntry) :
    tree.KeepsDirectories (tree.put place entry) := by
  intro other directory
  have differ : other ≠ place := by
    rintro rfl
    exact free directory
  rw [entryAt?_put_of_ne differ, directory]

theorem checkDirectory_eq_ok_iff :
    tree.checkDirectory place = .ok () ↔ tree.entryAt? place = some .directory := by
  unfold checkDirectory
  split <;> simp_all

theorem follow_cons_eq_ok_iff {name : String} {names : List String} {target : Place} :
    tree.follow place (name :: names) = .ok target ↔
      tree.entryAt? place = some .directory ∧
        ∃ inner, place.step name = .ok inner ∧ tree.follow inner names = .ok target := by
  rw [follow, Failure.check_bind_eq_ok_iff, Failure.bind_eq_ok_iff, checkDirectory_eq_ok_iff]

theorem follow_append {outer names : List String} {target : Place}
    (led : tree.follow place (outer ++ names) = .ok target) :
    ∃ inner, tree.follow place outer = .ok inner ∧ tree.follow inner names = .ok target := by
  induction outer generalizing place with
  | nil => exact ⟨place, rfl, led⟩
  | cons name rest induction =>
      rcases follow_cons_eq_ok_iff.mp led with ⟨directory, middle, stepped, others⟩
      rcases induction others with ⟨inner, before, behind⟩
      exact ⟨inner, follow_cons_eq_ok_iff.mpr ⟨directory, middle, stepped, before⟩, behind⟩

theorem KeepsDirectories.follow (keeps : tree.KeepsDirectories next) {names : List String}
    {target : Place} (led : tree.follow place names = .ok target) :
    next.follow place names = .ok target := by
  induction names generalizing place with
  | nil => exact led
  | cons name rest induction =>
      rcases follow_cons_eq_ok_iff.mp led with ⟨directory, inner, stepped, others⟩
      exact follow_cons_eq_ok_iff.mpr ⟨keeps place directory, inner, stepped, induction others⟩

theorem locate_eq_ok_iff : tree.locate path = .ok place ↔
    PathText.check path = .ok () ∧
      tree.follow (Place.start (PathText.isAbsolute path)) (PathText.names path) = .ok place := by
  exact Failure.check_bind_eq_ok_iff

theorem KeepsDirectories.locate (keeps : tree.KeepsDirectories next)
    (located : tree.locate path = .ok place) : next.locate path = .ok place := by
  rcases locate_eq_ok_iff.mp located with ⟨checked, led⟩
  exact locate_eq_ok_iff.mpr ⟨checked, keeps.follow led⟩

/-! ## Reading and writing -/

def checkAsked (tree : FileTree) (path : String) (place : Place) : Except DeviceError Unit :=
  if PathText.endsInSlash path then tree.checkDirectory place else .ok ()

theorem find_eq (tree : FileTree) (path : String) : tree.find path = (do
    let place ← tree.locate path
    tree.checkAsked path place
    match tree.entryAt? place with
    | some entry => return (place, entry)
    | none => throw .notFound) := by
  rw [find]
  congr 1
  funext place
  unfold checkAsked
  cases PathText.endsInSlash path <;> rcases tree.entryAt? place with _ | entry <;> rfl

/-- A file is at a place that the path leads to, and the path does not ask for a directory. -/
structure Holds (tree : FileTree) (path : String) (place : Place) (content : List UInt8) :
    Prop where
  located : tree.locate path = .ok place
  noSlash : PathText.endsInSlash path = false
  file : tree.entryAt? place = some (.file content)

theorem checkAsked_of_file (file : tree.entryAt? place = some (.file content)) :
    tree.checkAsked path place = .ok () ↔ PathText.endsInSlash path = false := by
  rw [checkAsked]
  cases PathText.endsInSlash path with
  | false => exact iff_of_true rfl rfl
  | true =>
      rw [if_pos rfl, checkDirectory_eq_ok_iff, file]
      exact iff_of_false nofun nofun

theorem find_file_iff :
    tree.find path = .ok (place, .file content) ↔ tree.Holds path place content := by
  constructor
  · intro found
    rw [find_eq] at found
    rcases Failure.bind_eq_ok_iff.mp found with ⟨there, located, rest⟩
    rcases Failure.check_bind_eq_ok_iff.mp rest with ⟨asked, present⟩
    rcases held : tree.entryAt? there with _ | entry
    · rw [held] at present
      cases present
    · rw [held] at present
      cases present
      exact ⟨located, (checkAsked_of_file held).mp asked, held⟩
  · intro holds
    rw [find_eq]
    refine Failure.bind_eq_ok_iff.mpr ⟨place, holds.located, ?_⟩
    refine Failure.check_bind_eq_ok_iff.mpr
      ⟨(checkAsked_of_file holds.file).mpr holds.noSlash, ?_⟩
    rw [holds.file]
    rfl

theorem read_eq_ok_iff :
    tree.read path = .ok content ↔ ∃ place, tree.Holds path place content := by
  rw [read, Failure.bind_eq_ok_iff]
  constructor
  · rintro ⟨⟨place, entry⟩, found, stored⟩
    cases entry with
    | directory => cases stored
    | file _ =>
        cases stored
        exact ⟨place, find_file_iff.mp found⟩
  · rintro ⟨place, holds⟩
    exact ⟨(place, .file content), find_file_iff.mpr holds, rfl⟩

theorem write_eq_ok_iff : tree.write path content = .ok next ↔
    ∃ place, tree.locate path = .ok place ∧ PathText.endsInSlash path = false ∧
      tree.entryAt? place ≠ some .directory ∧ next = tree.put place (.file content) := by
  rw [write, Failure.bind_eq_ok_iff]
  refine exists_congr fun place => and_congr_right fun _ => ?_
  by_cases refused : PathText.endsInSlash path ∨ tree.entryAt? place = some .directory
  · rw [if_pos refused]
    refine iff_of_false nofun fun free => ?_
    rcases refused with ends | directory
    · exact Bool.false_ne_true (free.1.symm.trans ends)
    · exact free.2.1 directory
  · rw [if_neg refused]
    rw [not_or, Bool.not_eq_true] at refused
    constructor
    · intro written
      cases written
      exact ⟨refused.1, refused.2, rfl⟩
    · rintro ⟨_, _, rfl⟩
      rfl

theorem read_write (written : tree.write path content = .ok next) :
    next.read path = .ok content := by
  rcases write_eq_ok_iff.mp written with ⟨place, located, noSlash, free, rfl⟩
  have inside : place.names ≠ [] := fun anchor => free (if_pos anchor)
  exact read_eq_ok_iff.mpr ⟨place, (keepsDirectories_put free _).locate located, noSlash,
    entryAt?_put_self inside tree _⟩

theorem read_write_of_ne {otherPath : String} (written : tree.write path content = .ok next)
    (held : tree.read otherPath = .ok old)
    (apart : ∀ place, tree.locate path = .ok place → tree.locate otherPath ≠ .ok place) :
    next.read otherPath = .ok old := by
  rcases write_eq_ok_iff.mp written with ⟨place, located, _, free, rfl⟩
  rcases read_eq_ok_iff.mp held with ⟨other, holds⟩
  have differ : other ≠ place := by
    rintro rfl
    exact apart other located holds.located
  exact read_eq_ok_iff.mpr ⟨other, (keepsDirectories_put free _).locate holds.located,
    holds.noSlash, (entryAt?_put_of_ne differ tree _).trans holds.file⟩

theorem write_after_write {otherPath : String} {reached : FileTree}
    (written : tree.write path content = .ok next)
    (writable : tree.write otherPath old = .ok reached) :
    ∃ reached, next.write otherPath old = .ok reached := by
  rcases write_eq_ok_iff.mp written with ⟨place, _, _, free, rfl⟩
  rcases write_eq_ok_iff.mp writable with ⟨other, located, noSlash, freeOther, _⟩
  refine ⟨_, write_eq_ok_iff.mpr
    ⟨other, (keepsDirectories_put free _).locate located, noSlash, ?_, rfl⟩⟩
  by_cases same : other = place
  · subst same
    have inside : other.names ≠ [] := fun anchor => free (if_pos anchor)
    rw [entryAt?_put_self inside]
    exact nofun
  · rwa [entryAt?_put_of_ne same]

/-! ## Entries of one directory -/

theorem locate_entryIn {directory name : String} (isName : PathText.IsEntryName name)
    (located : tree.locate (PathText.entryIn directory name) = .ok place) :
    ∃ outer, tree.follow (Place.start (PathText.isAbsolute directory))
        (PathText.names directory) = .ok outer ∧ place = outer.entry name := by
  have led := (locate_eq_ok_iff.mp located).2
  rw [PathText.isAbsolute_entryIn directory isName, PathText.names_entryIn directory isName] at led
  rcases follow_append led with ⟨outer, before, last⟩
  rcases follow_cons_eq_ok_iff.mp last with ⟨_, inner, stepped, arrived⟩
  refine ⟨outer, before, ?_⟩
  rw [Place.step, if_neg isName.notSame, if_neg isName.notAbove] at stepped
  split at stepped
  · cases stepped
  · cases stepped
    cases arrived
    rfl

theorem locate_entryIn_ne {directory name otherName : String}
    (isName : PathText.IsEntryName name) (isOther : PathText.IsEntryName otherName)
    (differ : name ≠ otherName)
    (located : tree.locate (PathText.entryIn directory name) = .ok place) :
    tree.locate (PathText.entryIn directory otherName) ≠ .ok place := by
  intro locatedOther
  rcases locate_entryIn isName located with ⟨outer, led, rfl⟩
  rcases locate_entryIn isOther locatedOther with ⟨other, ledOther, same⟩
  cases led.symm.trans ledOther
  exact differ (List.cons.inj (congrArg Place.names same)).1

end FileTree

end RangeRecall
