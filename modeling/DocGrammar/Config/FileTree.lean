import DocGrammar.Config.FilePath

/-! # File trees

What a program can see of the files: their contents by the names on the way from the root, some
directories, and the working directory. A directory is also there if a file is below it.

* **`FileTree.entry`** — what a path leads to.
* **`FileTree.below`** — the paths of what lies below a directory. -/

namespace DocGrammar

/-- The files that a program can see. -/
structure FileTree where
  /-- The names of the working directory, from the root on. -/
  working : List String
  /-- The contents of the files, by the names from the root on. -/
  files : List (List String × String)
  /-- The names, from the root on, of directories that may hold no file. -/
  directories : List (List String)
  deriving Repr

/-- What a path leads to. -/
inductive FileEntry where
  /-- A file with its content. -/
  | file (content : String)
  /-- A directory. -/
  | directory
  /-- Nothing. -/
  | missing
  /-- Nothing, because a file stands where the path goes on. -/
  | blocked
  deriving DecidableEq, Repr

namespace FileTree

/-- Whether the names from the root on lead to a directory. -/
def isDirectory (tree : FileTree) (names : List String) : Bool :=
  names.isPrefixOf tree.working || tree.directories.any names.isPrefixOf ||
    tree.files.any fun (file, _) => names.isPrefixOf file && names.length < file.length

/-- What the names from the root on lead to. -/
def entryAt (tree : FileTree) (names : List String) : FileEntry :=
  match tree.files.lookup names with
  | some content => .file content
  | none => if tree.isDirectory names then .directory else .missing

/-- What parts of a path lead to, from the directory at some names on. -/
def follow (tree : FileTree) : List String → List String → FileEntry
  | here, [] => tree.entryAt here
  | here, part :: parts =>
    match tree.entryAt here with
    | .directory =>
      if part = "" || part = "." then tree.follow here parts
      else if part = ".." then tree.follow here.dropLast parts
      else tree.follow (here ++ [part]) parts
    | .file _ => .blocked
    | other => other

/-- Where the parts of a path start. -/
def origin (tree : FileTree) (isAbsolute : Bool) : List String :=
  if isAbsolute then [] else tree.working

/-- What a path leads to. -/
def entry (tree : FileTree) (path : FilePath) : FileEntry :=
  tree.follow (tree.origin path.isAbsolute) path.parts

/-- What a written path leads to. A slash at its end asks for a directory. -/
def writtenEntry (tree : FileTree) (text : String) : FileEntry :=
  if text.isEmpty then .missing
  else tree.follow (tree.origin (text.toList.head? = some '/')) (text.splitOn "/")

/-- The names from the root on that a path leads to, whether there is something or not. -/
def settled (tree : FileTree) (path : FilePath) : List String :=
  FilePath.settle (tree.origin path.isAbsolute ++ path.parts)

/-- The names, seen from a directory, of the files and directories below it. -/
def below (tree : FileTree) (directory : List String) : List (List String) :=
  let inside := (tree.files.map (·.1) ++ tree.directories).filter directory.isPrefixOf
  let relative := inside.map (·.drop directory.length)
  (relative.flatMap fun names => (List.range names.length).map fun count =>
    names.take (count + 1)).eraseDups

end FileTree

end DocGrammar
