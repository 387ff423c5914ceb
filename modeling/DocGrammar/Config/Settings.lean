import DocGrammar.Config.FileTree
import DocGrammar.Config.Toml.Read
import DocGrammar.Parse

/-! # Settings

The settings of a project stand in a file named `grammars.toml`. The nearest one counts: that of
the start directory or of the first directory above it that has one.

* **`Settings.locate`** — the path of the nearest settings file.
* **`Settings.load`** — the settings in a file.
* **`Settings.nearest`** — the nearest settings, or the standard ones if there are none. -/

namespace DocGrammar

/-! ## Settings and errors -/

/-- The depth limit of a settings file. -/
inductive DepthSetting where
  /-- A number. -/
  | number (value : Int)
  /-- The value true, which stands for one. -/
  | one
  deriving DecidableEq, Repr

/-- The limit that a setting stands for. -/
def DepthSetting.limit : DepthSetting → Int
  | number value => value
  | one => 1

/-- The settings of a project. -/
structure Settings where
  /-- The grammar of documents without a directive. -/
  defaultGrammar : Option String
  /-- The depth limit. -/
  depth : DepthSetting
  /-- The directory of the fixtures. -/
  fixtures : String
  /-- Whether reports are coloured. -/
  color : Bool
  /-- Whether trees show field names. -/
  fields : Bool
  /-- The directory of the settings file, if there is one. -/
  root : Option FilePath
  deriving DecidableEq, Repr

/-- Why no settings were read. -/
inductive SettingsError where
  /-- No directory on the way to the root has a settings file. -/
  | notFound
  /-- There is no file at a path. -/
  | missing (path : FilePath)
  /-- A path leads through a file. -/
  | blocked (path : FilePath)
  /-- There is a directory at a path. -/
  | directory (path : FilePath)
  /-- The file is malformed. -/
  | malformed
  /-- The depth limit is no positive number. -/
  | invalidDepth (path : FilePath)
  deriving DecidableEq, Repr

namespace Settings

/-- The name of settings files. -/
def fileName : String := "grammars.toml"

/-- The wording of an error. -/
def errorMessage : SettingsError → String
  | .notFound => "No " ++ fileName ++ " found in any parent directory"
  | .missing path => "[Errno 2] No such file or directory: " ++ quoted path.display
  | .blocked path => "[Errno 20] Not a directory: " ++ quoted path.display
  | .directory path => "[Errno 21] Is a directory: " ++ quoted path.display
  | .malformed => "malformed " ++ fileName
  | .invalidDepth path => path.display ++ ": parser.max_depth must be a positive integer"

/-- The settings of a project without a settings file. -/
def standard : Settings := ⟨none, .number defaultLimit, "tests/corpus", true, false, none⟩

/-- The path of the fixtures: relative paths are seen from the settings file. -/
def fixturesPath (settings : Settings) : FilePath :=
  let path := FilePath.ofText settings.fixtures
  match settings.root with
  | some root => root.join path
  | none => path

/-! ## Finding settings -/

/-- The names of a directory and of all directories above it, the nearest first. -/
def ancestors (names : List String) : List (List String) :=
  (List.range (names.length + 1)).map fun count => names.take (names.length - count)

/-- Whether there is something at the names from the root on. -/
def isThere (tree : FileTree) (names : List String) : Bool :=
  match tree.entryAt names with
  | .file _ | .directory => true
  | .missing | .blocked => false

/-- The path of the settings file that is nearest to the start path. -/
def locate (tree : FileTree) (start : FilePath) : Except SettingsError FilePath :=
  let names := tree.settled start
  let directory :=
    match tree.entryAt names with
    | .file _ => names.dropLast
    | _ => names
  let candidates := (ancestors directory).map fun names => names ++ [fileName]
  match candidates.find? (isThere tree) with
  | some found => .ok (.absolute found)
  | none => .error .notFound

/-! ## Reading settings -/

/-- The table at a key, if there is one. -/
def tableAt? (table : Toml.Table) (key : String) : Option Toml.Table :=
  match table.value? key with
  | some (.table inner) => some inner
  | _ => none

/-- The text at a key, if there is one. -/
def textAt? (table : Toml.Table) (key : String) : Option String :=
  match table.value? key with
  | some (.string text) => some text
  | _ => none

/-- The truth value at a key, if there is one. -/
def flagAt? (table : Toml.Table) (key : String) : Option Bool :=
  match table.value? key with
  | some (.boolean flag) => some flag
  | _ => none

/-- The depth limit in a table, which has to be positive. -/
def depthIn (table : Toml.Table) (path : FilePath) : Except SettingsError DepthSetting :=
  match table.value? "max_depth" with
  | none => .ok standard.depth
  | some (.integer value) =>
    if 1 ≤ value then .ok (.number value) else .error (.invalidDepth path)
  | some (.boolean true) => .ok .one
  | some _ => .error (.invalidDepth path)

/-- The settings in the table of a settings file. -/
def ofTable (table : Toml.Table) (path : FilePath) : Except SettingsError Settings := do
  let parsing := (tableAt? table "parser").getD []
  let fixtures := (tableAt? table "corpus").getD []
  let output := (tableAt? table "output").getD []
  return {
    defaultGrammar := textAt? parsing "default_grammar"
    depth := ← depthIn parsing path
    fixtures := (textAt? fixtures "directory").getD standard.fixtures
    color := (flagAt? output "color").getD standard.color
    fields := (flagAt? output "fields").getD standard.fields
    root := some path.parent }

/-- The settings in the file at a path. -/
def load (tree : FileTree) (path : FilePath) : Except SettingsError Settings :=
  match tree.entry path with
  | .missing => .error (.missing path)
  | .blocked => .error (.blocked path)
  | .directory => .error (.directory path)
  | .file content =>
    match Toml.read? content with
    | none => .error .malformed
    | some table => ofTable table path

/-- The settings that are nearest to a path, or the standard ones. -/
def nearest (tree : FileTree) (start : FilePath) : Except SettingsError Settings :=
  match locate tree start with
  | .error _ => .ok standard
  | .ok path => load tree path

end Settings

end DocGrammar
