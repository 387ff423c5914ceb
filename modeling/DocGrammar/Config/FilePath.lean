/-! # File paths

A path is a list of names below the root or below the working directory. Empty parts and single
dots mean nothing and are left out; double dots are kept, because what they mean depends on the
files.

* **`FilePath.ofText`**, **`FilePath.display`** — reading and writing paths.
* **`FilePath.join`**, **`FilePath.parent`** — paths from paths. -/

namespace DocGrammar

/-- A file path. -/
structure FilePath where
  /-- Whether the path starts at the root. -/
  isAbsolute : Bool
  /-- The names on the way. -/
  parts : List String
  deriving DecidableEq, Repr

namespace FilePath

/-- Whether part of a written path means something. -/
def isName (part : String) : Bool := part ≠ "" && part ≠ "."

/-- The path that a text writes. -/
def ofText (text : String) : FilePath :=
  ⟨text.toList.head? = some '/', (text.splitOn "/").filter isName⟩

/-- The path of names below the root. -/
def absolute (parts : List String) : FilePath := ⟨true, parts⟩

/-- How a path is written. -/
def display (path : FilePath) : String :=
  let names := "/".intercalate path.parts
  if path.isAbsolute then "/" ++ names else if path.parts.isEmpty then "." else names

/-- The path `other`, seen from a directory at `path`. -/
def join (path other : FilePath) : FilePath :=
  if other.isAbsolute then other else ⟨path.isAbsolute, path.parts ++ other.parts⟩

/-- The path without its last name. -/
def parent (path : FilePath) : FilePath := ⟨path.isAbsolute, path.parts.dropLast⟩

/-- The names below the root with double dots taken away together with the name before them. -/
def settle (names : List String) : List String :=
  names.foldl (fun kept name => if name = ".." then kept.dropLast else kept ++ [name]) []

/-- Whether names stand before other names in a listing: the first names that differ decide. -/
def precedes : List String → List String → Bool
  | [], _ => true
  | _ :: _, [] => false
  | first :: others, second :: rest =>
    if first = second then precedes others rest else decide (first < second)

end FilePath

end DocGrammar
