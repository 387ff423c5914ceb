import DocGrammar.Fixture.Case
import DocGrammar.Fixture.Diff
import DocGrammar.Parse

/-! # Running fixtures

A case passes when its input parses without diagnostics to a tree that the expected outline
accepts. Otherwise the result shows the difference between the two trees, and the diagnostics.

* **`CaseResult.ofParse`** — the result of a case whose input was parsed.
* **`runFixture`** — the results of all cases of a fixture file. -/

namespace DocGrammar

/-- The result of a case. -/
structure CaseResult where
  /-- The name of the case. -/
  name : String
  /-- Whether the case passed. -/
  passed : Bool
  /-- What went wrong, empty if the case passed. -/
  diff : String
  /-- The number of the first line of the case. -/
  line : Nat
  deriving DecidableEq, Repr

/-- What stands for a tree that there is not. -/
def noTreeText : String := "(no tree)"

/-- The lines of a tree, with as much detail as the expected outline states. -/
def actualLines (expected : Outline) (tree : Option Node) : List String :=
  match tree with
  | none => [noTreeText]
  | some node => textLines ((node.outline expected.detail).pretty Outline.standardIndent)

/-- The result of a case whose input was parsed with the given result. -/
def CaseResult.ofParse (case : FixtureCase) (result : ParseResult) : CaseResult :=
  let accepted := (result.tree.map case.expected.accepts).getD false
  if accepted && result.diagnostics.isEmpty then ⟨case.name, true, "", case.line⟩
  else
    let expected := textLines (case.expected.pretty Outline.standardIndent)
    let diff := unifiedDiff "expected" "actual" expected (actualLines case.expected result.tree)
    let reports := result.diagnostics.map fun diagnostic => "diagnostic: " ++ diagnostic.display
    ⟨case.name, false, "\n".intercalate (diff ++ reports), case.line⟩

/-- The result of a case. Documents go to the given parser, with the grammar of the case or the
default one; types are parsed as such. -/
def runCase {m : Type → Type} [Monad m] (parse : String → Option String → m ParseResult)
    (defaultGrammar : Option String) (case : FixtureCase) : m CaseResult := do
  let result ←
    if case.isType then pure (parseType inputFile defaultLimit case.input)
    else parse case.input (case.grammar.or defaultGrammar)
  return CaseResult.ofParse case result

/-- The results of all cases of a fixture file. -/
def runFixture {m : Type → Type} [Monad m] (parse : String → Option String → m ParseResult)
    (defaultGrammar : Option String) (text : String) :
    m (Except FixtureError (List CaseResult)) := do
  match readFixture text with
  | .error error => return .error error
  | .ok cases => return .ok (← cases.mapM (runCase parse defaultGrammar))

/-- The parse of a case input by a registry. -/
def registryParse (registry : Registry) (text : String) (grammar : Option String) :
    Id ParseResult :=
  parseDocument registry inputFile defaultLimit grammar text

end DocGrammar
