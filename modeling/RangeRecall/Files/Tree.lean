import RangeRecall.Files.PathText

/-!
A tree of files around a working directory. A path is followed name by name, and
every name but the last must lead to a directory that is there. The root, the
working directory and the directories above it are always there.
-/

namespace RangeRecall

/-- A directory that is always there: the root, or the directory so many levels above the
working directory. -/
inductive Anchor where
  | root
  | working (levelsAbove : Nat)
deriving DecidableEq, Repr

/-- Where an entry is: the names that lead to it, the innermost first, from an anchor. -/
structure Place where
  anchor : Anchor
  names : List String := []
deriving DecidableEq, Repr

def Anchor.up : Anchor → Anchor
  | .root => .root
  | .working levelsAbove => .working (levelsAbove + 1)

namespace Place

def start (isAbsolute : Bool) : Place :=
  { anchor := if isAbsolute then .root else .working 0 }

def up (place : Place) : Place :=
  match place.names with
  | [] => { anchor := place.anchor.up }
  | _ :: outer => { place with names := outer }

def entry (place : Place) (name : String) : Place :=
  { place with names := name :: place.names }

def step (place : Place) (name : String) : Except DeviceError Place :=
  if name = PathText.sameDirectory then .ok place
  else if name = PathText.directoryAbove then .ok place.up
  else if PathText.nameByteLimit < name.utf8ByteSize then .error .nameTooLong
  else .ok (place.entry name)

end Place

inductive FileEntry where
  | file (content : List UInt8)
  | directory
deriving DecidableEq, Repr

/-- The entries of a tree, the anchors left out. Of two entries at one place the earlier
counts. -/
structure FileTree where
  entries : List (Place × FileEntry) := []
deriving DecidableEq, Repr

namespace FileTree

def entryAt? (tree : FileTree) (place : Place) : Option FileEntry :=
  if place.names = [] then some .directory else tree.entries.lookup place

def put (tree : FileTree) (place : Place) (entry : FileEntry) : FileTree :=
  { entries := (place, entry) :: tree.entries.filter fun other => other.1 ≠ place }

def ofFiles (files : List (String × List UInt8)) : FileTree :=
  { entries := files.map fun (name, content) =>
      ((Place.start false).entry name, .file content) }

/-! ## Following paths -/

def checkDirectory (tree : FileTree) (place : Place) : Except DeviceError Unit :=
  match tree.entryAt? place with
  | some .directory => .ok ()
  | some (.file _) => .error .notADirectory
  | none => .error .notFound

def follow (tree : FileTree) (place : Place) : List String → Except DeviceError Place
  | [] => .ok place
  | name :: rest => do
    tree.checkDirectory place
    tree.follow (← place.step name) rest

def locate (tree : FileTree) (path : String) : Except DeviceError Place := do
  PathText.check path
  tree.follow (Place.start (PathText.isAbsolute path)) (PathText.names path)

def find (tree : FileTree) (path : String) : Except DeviceError (Place × FileEntry) := do
  let place ← tree.locate path
  if PathText.endsInSlash path then
    tree.checkDirectory place
  match tree.entryAt? place with
  | some entry => return (place, entry)
  | none => throw .notFound

def isDirectory (tree : FileTree) (path : String) : Bool :=
  match tree.find path with
  | .ok (_, .directory) => true
  | _ => false

/-! ## Files -/

def read (tree : FileTree) (path : String) : Except DeviceError (List UInt8) := do
  match ← tree.find path with
  | (_, .directory) => throw .isADirectory
  | (_, .file content) => return content

def write (tree : FileTree) (path : String) (content : List UInt8) :
    Except DeviceError FileTree := do
  let place ← tree.locate path
  if PathText.endsInSlash path ∨ tree.entryAt? place = some .directory then
    throw .isADirectory
  return tree.put place (.file content)

/-! ## Directories -/

def makeDirectory (tree : FileTree) (path : String) : Except DeviceError FileTree := do
  let place ← tree.locate path
  match tree.entryAt? place with
  | some _ => throw .alreadyExists
  | none => return tree.put place .directory

def orUnchanged (tree : FileTree) : Except ε FileTree → Except ε Unit × FileTree
  | .ok next => (.ok (), next)
  | .error error => (.error error, tree)

def ensureDirectory (tree : FileTree) (path : String) : Except DeviceError Unit × FileTree :=
  match tree.makeDirectory path with
  | .ok next => (.ok (), next)
  | .error error => (if tree.isDirectory path then .ok () else .error error, tree)

/-- The tree with a directory at the first of some paths. Where the way to a path is not there
yet, the next path is seen to before, and stays if the first one fails then. -/
def ensureThrough (tree : FileTree) : List String → Except DeviceError Unit × FileTree
  | [] => (.ok (), tree)
  | path :: above =>
    match tree.makeDirectory path with
    | .error .notFound =>
      match tree.ensureThrough above with
      | (.ok (), next) => next.ensureDirectory path
      | (.error error, next) => (.error error, next)
    | _ => tree.ensureDirectory path

/-- The tree with a directory at a path and at every path above it. The empty path asks for
none. -/
def createDirectories (tree : FileTree) (path : String) : Except DeviceError Unit × FileTree :=
  if path = "" then (.ok (), tree) else tree.ensureThrough (path :: PathText.ancestors path)

def fileNames (tree : FileTree) (path : String) : Except DeviceError (List String) := do
  let (directory, _) ← tree.find path
  tree.checkDirectory directory
  return tree.entries.filterMap fun (place, entry) =>
    match entry, place.names with
    | .file _, name :: outer =>
      if directory = { place with names := outer } then some name else none
    | _, _ => none

end FileTree

end RangeRecall
