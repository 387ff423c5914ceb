import DocGrammar.CommandLine.Command

/-! # The command-line program

Reads the files that the arguments can name, runs the command, and writes its outcome. -/

namespace DocGrammar

/-- The text of a file, unless it cannot be read as text. -/
def textOfFile? (path : String) : IO (Option String) := do
  try
    return some (← IO.FS.readFile path)
  catch _ =>
    return none

/-- The file tree with what stands at some names from the root on. Of a directory, the fixture
files below it are taken. -/
partial def FileTree.extend (tree : FileTree) (names : List String) : IO FileTree := do
  let path := (FilePath.absolute names).display
  if ← (System.mkFilePath [path]).isDir then
    let start : FileTree := { tree with directories := names :: tree.directories }
    (← (System.mkFilePath [path]).readDir).foldlM (fun found entry => do
      if isFixtureName entry.fileName || (← entry.path.isDir) then
        found.extend (names ++ [entry.fileName])
      else return found) start
  else
    let content ← textOfFile? path
    return { tree with files := content.toList.map (fun text => (names, text)) ++ tree.files }

/-- The file tree with the settings files of a directory and of those above it. -/
def FileTree.withSettings (tree : FileTree) (directory : List String) : IO FileTree :=
  ((Settings.ancestors directory).map (· ++ [Settings.fileName])).foldlM FileTree.extend tree

/-- The files that the arguments can name, seen from the working directory. -/
def visibleFiles (working : List String) (arguments : List String) : IO FileTree := do
  let tree ← FileTree.withSettings ⟨working, [], []⟩ working
  let fixtures :=
    match Settings.nearest tree (.absolute working) with
    | .ok found => [found.fixturesPath]
    | .error _ => []
  let named := (arguments.map FilePath.ofText ++ fixtures).map tree.settled
  (named.filter (!·.isEmpty)).foldlM FileTree.extend tree

/-- What is written about a failure that no command deals with. -/
def Crash.message : Crash → String
  | .settings error => Settings.errorMessage error
  | .malformedLiteral => OutlineError.message .malformedLiteral
  | .directory path => Settings.errorMessage (.directory path)

/-- Writes the outcome of a command and yields its exit code. -/
def writeOutcome (outcome : Outcome) : IO UInt32 := do
  IO.print outcome.output
  IO.eprint outcome.errors
  match outcome.crash with
  | some crash => IO.eprintln ("error: " ++ crash.message)
  | none => pure ()
  return outcome.exit.toUInt32

end DocGrammar

/-- Runs the command that the arguments ask for. -/
def main (arguments : List String) : IO UInt32 := do
  let working := (DocGrammar.FilePath.ofText (← IO.currentDir).toString).parts
  let tree ← DocGrammar.visibleFiles working arguments
  DocGrammar.writeOutcome (DocGrammar.runCommand tree arguments)
