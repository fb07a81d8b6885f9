import RangeRecall.Bytes.Device

/-!
Path texts: names between slashes. A path that begins with a slash leads from the
root and any other path from the working directory; a path that ends in a slash
leads to a directory.
-/

namespace RangeRecall

namespace PathText

def parts : List Char → List (List Char)
  | [] => [[]]
  | character :: rest =>
    if character = '/' then [] :: parts rest
    else
      match parts rest with
      | [] => [[character]]
      | first :: others => (character :: first) :: others

theorem parts_ne_nil (text : List Char) : parts text ≠ [] := by
  cases text with
  | nil => simp [parts]
  | cons character rest =>
    unfold parts
    split
    · simp
    · split <;> simp

theorem parts_append_slash (left right : List Char) :
    parts (left ++ '/' :: right) = parts left ++ parts right := by
  induction left with
  | nil => rfl
  | cons character rest induction =>
    simp only [List.cons_append, parts, induction]
    split
    · rfl
    · cases equal : parts rest with
      | nil => exact absurd equal (parts_ne_nil rest)
      | cons first others => rfl

/-- The names on the way, the outermost first. The dots that stand for a directory itself and
for the directory above it are names here. -/
def names (path : String) : List String :=
  ((parts path.toList).filter fun part => part ≠ []).map String.ofList

def isAbsolute (path : String) : Bool :=
  path.toList.head? = some '/'

def endsInSlash (path : String) : Bool :=
  path.toList.getLast? = some '/'

def sameDirectory : String :=
  "."

def directoryAbove : String :=
  ".."

def entryIn (directory name : String) : String :=
  if directory = "" ∨ endsInSlash directory then directory ++ name
  else directory ++ "/" ++ name

/-- The paths that stop short of the last name, the longest first. The name of the directory
itself adds nothing to a path and is left out. -/
def ancestors (path : String) : List String :=
  let way := (names path).filter fun name => name ≠ sameDirectory
  let start := if isAbsolute path then "/" else ""
  (List.range (way.length - 1)).reverse.map fun last =>
    start ++ "/".intercalate (way.take (last + 1))

def byteLimit : Nat := 4095

def nameByteLimit : Nat := 255

def check (path : String) : Except DeviceError Unit :=
  if '\x00' ∈ path.toList then .error .zeroByteInName
  else if path = "" then .error .notFound
  else if byteLimit < path.utf8ByteSize then .error .nameTooLong
  else .ok ()

end PathText

end RangeRecall
