import DocGrammar.CommandLine.Arguments
import DocGrammar.CommandLine.Outcome
import DocGrammar.Diagnostic.Report
import DocGrammar.Fixture.Run
import DocGrammar.Highlight.Terminal

/-! # Commands

* **`parseCommand`** — parses a file and shows its tree and its diagnostics.
* **`tokensCommand`** — lists the document tokens of a file.
* **`testCommand`** — runs a fixture file, or all fixture files below a directory.
* **`grammarsCommand`** — lists the grammars.
* **`highlightCommand`** — shows a file with colours.
* **`runCommand`** — runs the command that some arguments ask for. -/

namespace DocGrammar

/-! ## Surroundings -/

/-- What a command runs in. -/
structure Surroundings where
  /-- The files. -/
  tree : FileTree
  /-- The settings. -/
  settings : Settings
  /-- Whether the log is shown. -/
  verbose : Bool

/-- The text of a file, with line feeds as the only line ends. -/
def readText (content : String) : String := String.ofList (normalizeBreaks content.toList)

/-- The name and the text of the file at a written path, if there is one. -/
def sourceAt? (tree : FileTree) (path : String) : Option (String × String) :=
  match tree.writtenEntry path with
  | .file content => some ((FilePath.ofText path).display, readText content)
  | _ => none

/-- A grammar option that is not empty. -/
def grammarOption (arguments : Arguments) : Option String :=
  (arguments.value? "grammar").filter (!·.isEmpty)

/-- The only positional argument of a command. -/
def onlyArgument? (arguments : Arguments) : Option String :=
  match arguments.positional with
  | [argument] => some argument
  | _ => none

/-! ## Parsing a file -/

/-- The options of the parse command. -/
def parseOptions : OptionTable :=
  [⟨"grammar", ["-g", "--grammar"], true⟩, ⟨"fields", ["--fields"], false⟩,
    ⟨"no-fields", ["--no-fields"], false⟩, ⟨"text", ["--text"], false⟩,
    ⟨"max-depth", ["--max-depth"], true⟩]

/-- The depth limit that the options ask for, or that of the settings. A limit below one is
refused. -/
def depthOption? (arguments : Arguments) (settings : Settings) : Option Int :=
  match arguments.value? "max-depth" with
  | none => some settings.depth.limit
  | some text => (wholeNumber? (trim text.toList)).filter (1 ≤ ·)

/-- Whether trees show field names. -/
def fieldsOption (arguments : Arguments) (settings : Settings) : Bool :=
  match arguments.lastOf? ["fields", "no-fields"] with
  | some used => used == "fields"
  | none => settings.fields

/-- Parses a file and shows its tree and its diagnostics. -/
def parseCommand (surroundings : Surroundings) (arguments : Arguments) : Outcome :=
  let settings := surroundings.settings
  match (onlyArgument? arguments).bind (sourceAt? surroundings.tree),
      depthOption? arguments settings with
  | some (file, text), some limit =>
    let grammar := (grammarOption arguments).or settings.defaultGrammar
    let result := parseDocument .builtIn file limit grammar text
    let detail : OutlineDetail := ⟨fieldsOption arguments settings, arguments.has "text"⟩
    let trees := result.tree.toList.map fun tree =>
      (tree.outline detail).pretty Outline.standardIndent
    let palette := Palette.ofFlag settings.color
    let reports := result.diagnostics.map fun diagnostic =>
      diagnostic.report palette [Listing.ofText file text]
    let errors := logText surroundings.verbose result.events ++ printedAll reports
    if result.isSuccess then .success (printedAll trees) errors
    else .failure (printedAll trees) errors
  | _, _ => .misuse

/-! ## Listing tokens -/

/-- A token as a line of a listing. -/
def Token.listed (token : Token) : String :=
  toString token.line ++ ":" ++ toString token.column ++ "\t" ++ token.kind.name ++ "\t" ++
    quoted token.value

/-- Lists the document tokens of a file. -/
def tokensCommand (surroundings : Surroundings) (arguments : Arguments) : Outcome :=
  match (onlyArgument? arguments).bind (sourceAt? surroundings.tree) with
  | none => .misuse
  | some (file, text) =>
    match documentTokens file text with
    | .ok tokens => .success (printedAll (tokens.map Token.listed)) ""
    | .error diagnostic =>
      let palette := Palette.ofFlag surroundings.settings.color
      .failure "" (printed (diagnostic.report palette [Listing.ofText file text]))

/-! ## Running fixtures -/

/-- The options of the test and the highlight commands. -/
def grammarOptions : OptionTable := [⟨"grammar", ["-g", "--grammar"], true⟩]

/-- The results of a fixture file. -/
structure FileResults where
  /-- The path of the file. -/
  path : FilePath
  /-- The results of its cases. -/
  results : List CaseResult
  deriving Repr

/-- Why a test run ends early. -/
inductive TestStop where
  /-- A fixture file is malformed. -/
  | fixture (error : FixtureError)
  /-- Something that the command does not deal with. -/
  | crash (crash : Crash)
  deriving Repr

/-- Why a malformed fixture file ends a test run. -/
def TestStop.ofError (error : FixtureError) : TestStop :=
  match error.fault with
  | .malformedTree _ .malformedLiteral => .crash .malformedLiteral
  | _ => .fixture error

/-- A computation that logs events. -/
abbrev LogM : Type → Type := StateM (List Event)

/-- The parse of a case input, with its events added to the log. -/
def loggedParse (text : String) (grammar : Option String) : LogM ParseResult := do
  let result := parseDocument .builtIn inputFile defaultLimit grammar text
  modify (· ++ result.events)
  return result

/-- The results of a fixture file with the given content. -/
def runFile (defaultGrammar : Option String) (path : FilePath) (content : String) :
    ExceptT TestStop LogM FileResults := do
  match ← (runFixture loggedParse defaultGrammar (readText content) : LogM _) with
  | .ok results => return ⟨path, results⟩
  | .error error => throw (TestStop.ofError error)

/-- The results of the fixture files at some paths. -/
def runEntries (defaultGrammar : Option String) (entries : List (FilePath × FileEntry)) :
    ExceptT TestStop LogM (List FileResults) :=
  entries.mapM fun (path, entry) =>
    match entry with
    | .file content => runFile defaultGrammar path content
    | _ => throw (.crash (.directory path))

/-- Whether a name is that of a fixture file. -/
def isFixtureName (name : String) : Bool := [ 't', 'x', 't', '.'].isPrefixOf name.toList.reverse

/-- What is named as a fixture file below a directory, sorted by the names on the way. -/
def fixturesBelow (tree : FileTree) (directory : FilePath) : List (FilePath × FileEntry) :=
  let names := (tree.below (tree.settled directory)).filter fun names =>
    (names.getLast?.map isFixtureName).getD false
  (names.mergeSort FilePath.precedes).map fun names =>
    let path : FilePath := ⟨directory.isAbsolute, directory.parts ++ names⟩
    (path, tree.entry path)

/-- The lines that a test run shows of a case. -/
def CaseResult.shownLines (result : CaseResult) : List String :=
  if result.passed then ["  ✓ " ++ result.name]
  else
    ("  ✗ " ++ result.name ++ " (line " ++ toString result.line ++ ")") ::
      (textLines result.diff).map ("      " ++ ·)

/-- The lines that a test run shows of a file. -/
def FileResults.shownLines (file : FileResults) : List String :=
  (file.path.display ++ ":") :: file.results.flatMap CaseResult.shownLines

/-- The outcome of a test run with the given results. -/
def testOutcome (log : String) (files : List FileResults) : Outcome :=
  let results := files.flatMap FileResults.results
  let failed := (results.filter (!·.passed)).length
  let output := printedAll (files.flatMap FileResults.shownLines)
  if failed = 0 then
    .success (output ++ printed (toString results.length ++ " case(s) passed")) log
  else
    .failure output
      (log ++ printed (toString failed ++ " of " ++ toString results.length ++ " case(s) failed"))

/-- Runs what is at a path: a fixture file, or all fixture files below a directory. -/
def testPath (surroundings : Surroundings) (defaultGrammar : Option String) (path : FilePath)
    (entry : FileEntry) : Outcome :=
  let entries :=
    match entry with
    | .directory => fixturesBelow surroundings.tree path
    | other => [(path, other)]
  let (outcome, events) := (runEntries defaultGrammar entries).run.run []
  let log := logText surroundings.verbose events
  match outcome with
  | .ok files => testOutcome log files
  | .error (.fixture error) => .failure "" (log ++ printed ("error: " ++ error.message))
  | .error (.crash crash) => .crashed log crash

/-- Whether there is a file or a directory. -/
def FileEntry.exists : FileEntry → Bool
  | .file _ | .directory => true
  | .missing | .blocked => false

/-- Runs a fixture file, or all fixture files below a directory. Without an argument the fixtures
of the settings are run. -/
def testCommand (surroundings : Surroundings) (arguments : Arguments) : Outcome :=
  let defaultGrammar := (grammarOption arguments).or surroundings.settings.defaultGrammar
  match arguments.positional with
  | [] =>
    let path := surroundings.settings.fixturesPath
    let entry := surroundings.tree.entry path
    if entry.exists then testPath surroundings defaultGrammar path entry
    else .failure "" (printed ("error: corpus path " ++ path.display ++ " does not exist"))
  | [path] =>
    let entry := surroundings.tree.writtenEntry path
    if entry.exists then testPath surroundings defaultGrammar (FilePath.ofText path) entry
    else .misuse
  | _ => .misuse

/-! ## Listing grammars -/

/-- A grammar as a line of a listing. -/
def Grammar.listed (grammar : Grammar) : String :=
  if grammar.description.isEmpty then grammar.name
  else grammar.name ++ "\t" ++ grammar.description

/-- Lists the grammars. -/
def grammarsCommand (arguments : Arguments) : Outcome :=
  if arguments.positional.isEmpty then
    .success (printedAll (Registry.builtIn.sorted.map Grammar.listed)) ""
  else .misuse

/-! ## Highlighting a file -/

/-- Shows a file with colours. -/
def highlightCommand (surroundings : Surroundings) (arguments : Arguments) : Outcome :=
  match (onlyArgument? arguments).bind (sourceAt? surroundings.tree) with
  | none => .misuse
  | some (_, text) =>
    let chosen := (grammarOption arguments).or surroundings.settings.defaultGrammar
    match (detectGrammar text).or chosen with
    | none => .failure "" (printed "error: no grammar selected; pass --grammar")
    | some grammar =>
      match Highlighter.find? grammar with
      | some table => .success (table.terminal text) ""
      | none => .failure "" (printed ("error: " ++ Highlighter.missingMessage grammar))

/-! ## Running commands -/

/-- A command: its options, and what it does. -/
structure Command where
  /-- The options of the command. -/
  options : OptionTable
  /-- What the command does. -/
  run : Surroundings → Arguments → Outcome

/-- The command of a given name. -/
def Command.named? (name : String) : Option Command :=
  match name with
  | "parse" => some ⟨parseOptions, parseCommand⟩
  | "tokens" => some ⟨[], tokensCommand⟩
  | "test" => some ⟨grammarOptions, testCommand⟩
  | "grammars" => some ⟨[], fun _ => grammarsCommand⟩
  | "highlight" => some ⟨grammarOptions, highlightCommand⟩
  | _ => none

/-- The options before the name of a command. -/
def generalOptions : OptionTable :=
  [⟨"verbose", ["-v", "--verbose"], false⟩, ⟨"version", ["--version"], false⟩]

/-- What the version option shows. -/
def versionText : String := "vibe-grammars, version 0.1.0"

/-- Runs a command in the nearest settings. -/
def runIn (tree : FileTree) (verbose : Bool) (command : Command) (arguments : List String) :
    Outcome :=
  match Settings.nearest tree (.absolute tree.working) with
  | .error error => .crashed "" (.settings error)
  | .ok settings =>
    match readArguments command.options true arguments with
    | none => .misuse
    | some given => command.run ⟨tree, settings, verbose⟩ given

/-- Runs the command that some arguments ask for. -/
def runCommand (tree : FileTree) (arguments : List String) : Outcome :=
  match readArguments generalOptions false arguments with
  | none => .misuse
  | some general =>
    if general.has "version" then .success (printed versionText) ""
    else
      match general.positional with
      | [] => .misuse
      | name :: rest =>
        match Command.named? name with
        | none => .misuse
        | some command => runIn tree (general.has "verbose") command rest

end DocGrammar
