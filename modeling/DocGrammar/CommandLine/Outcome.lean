import DocGrammar.Config.Settings
import DocGrammar.Text.Letter

/-! # Outcomes of a command

A command writes to the output and to the error output, and ends with an exit code. Where it
writes for people, terminal codes are taken out. The log of a parse goes to the error output.

* **`Outcome`** — what a command did.
* **`printed`** — a text as it is written, without terminal codes.
* **`Event.logLine`** — an event as a line of the log. -/

namespace DocGrammar

/-! ## Outcomes -/

/-- A failure that a command does not deal with. -/
inductive Crash where
  /-- The settings could not be read. -/
  | settings (error : SettingsError)
  /-- A text literal in a fixture is malformed. -/
  | malformedLiteral
  /-- There is a directory where a fixture file should be. -/
  | directory (path : FilePath)
  deriving DecidableEq, Repr

/-- What a command did. -/
structure Outcome where
  /-- The exit code. -/
  exit : Nat
  /-- What it wrote to the output. -/
  output : String
  /-- What it wrote to the error output. -/
  errors : String
  /-- The failure that ended it early, if there was one. -/
  crash : Option Crash
  deriving DecidableEq, Repr

namespace Outcome

/-- The outcome of a command that ended well. -/
def success (output errors : String) : Outcome := ⟨0, output, errors, none⟩

/-- The outcome of a command that ended with a failure of its own. -/
def failure (output errors : String) : Outcome := ⟨1, output, errors, none⟩

/-- The outcome of a command that was used wrongly. -/
def misuse : Outcome := ⟨2, "", "", none⟩

/-- The outcome of a command that a failure ended early. -/
def crashed (errors : String) (crash : Crash) : Outcome := ⟨1, "", errors, some crash⟩

end Outcome

/-! ## Writing -/

/-- The number of characters of a terminal code behind its escape character. -/
def codeLength? : List Char → Option Nat
  | '[' :: rest =>
    let parameters := rest.takeWhile fun char => isAsciiDigit char || char = ';' || char = '?'
    match rest.drop parameters.length with
    | final :: _ => if isAsciiLetter final then some (parameters.length + 2) else none
    | [] => none
  | _ => none

/-- The text without terminal codes. -/
def stripCodes : List Char → List Char
  | [] => []
  | char :: rest =>
    match if char = '\x1b' then codeLength? rest else none with
    | some length => stripCodes (rest.drop length)
    | none => char :: stripCodes rest
termination_by chars => chars.length
decreasing_by all_goals simp only [List.length_drop, List.length_cons]; omega

/-- A text as it is written: without terminal codes, and with a line feed at its end. -/
def printed (text : String) : String :=
  String.ofList (stripCodes text.toList) ++ "\n"

/-- Texts as they are written, one after the other. -/
def printedAll (texts : List String) : String := String.join (texts.map printed)

/-! ## The log -/

/-- An event as a line of the log. -/
def Event.logLine : Event → String
  | parsing file grammar =>
    "DEBUG vibe_grammars.driver: parsing " ++ file ++ " with grammar " ++ quoted grammar ++ "\n"
  | recovering diagnostic =>
    "DEBUG vibe_grammars.parser: recovering from " ++ diagnostic.kind.name ++ " at " ++
      diagnostic.span.display ++ ": " ++ diagnostic.message ++ "\n"
  | skipping count title =>
    "DEBUG vibe_grammars.markdown: skipping " ++ toString count ++
      " nested section(s) under " ++ quoted title ++ "\n"

/-- The log of some events, empty unless it is asked for. -/
def logText (verbose : Bool) (events : List Event) : String :=
  if verbose then String.join (events.map Event.logLine) else ""

end DocGrammar
