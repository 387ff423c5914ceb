import DocGrammar.Specs.Line

/-! # Bodies of specs sections

Six sections describe a feature besides its heading. An intent section holds a single declaration,
each other section any number of lines of its kind. -/

namespace DocGrammar

/-- The sections of a specs document besides the feature itself. -/
inductive SpecSection where
  /-- What the feature does. -/
  | intent
  /-- What it is given. -/
  | inputs
  /-- What it yields. -/
  | outputs
  /-- Calls and their results. -/
  | examples
  /-- Constraints on inputs and outputs. -/
  | constraints
  /-- What always holds. -/
  | invariants
  deriving DecidableEq, Repr

namespace SpecSection

/-- The title of a section. -/
def title : SpecSection → String
  | intent => "Intent"
  | inputs => "Inputs"
  | outputs => "Outputs"
  | examples => "Examples"
  | constraints => "Constraints"
  | invariants => "Invariants"

/-- The sections in the order of their listing. -/
def all : List SpecSection := [intent, inputs, outputs, examples, constraints, invariants]

/-- The section of a given title. -/
def ofTitle? (wanted : String) : Option SpecSection :=
  all.find? fun part => part.title == wanted

/-- The node kind of a section. -/
def nodeKind : SpecSection → NodeKind
  | intent => .intentSection
  | inputs => .inputsSection
  | outputs => .outputsSection
  | examples => .examplesSection
  | constraints => .constraintsSection
  | invariants => .invariantsSection

/-- The rule of a line of a section. -/
def line : SpecSection → Rule Node
  | intent => SpecLine.intent
  | inputs => SpecLine.input
  | outputs => SpecLine.output
  | examples => SpecLine.exampleCall
  | constraints => SpecLine.constraint
  | invariants => SpecLine.invariant

/-! ## Rules of bodies -/

/-- The end of a line, or of the section. -/
def endOfLine : Rule Unit := do
  let token ← Rule.current
  if token.kind = .newline then
    let _ ← Rule.advance
  else if token.kind ≠ .endOfInput then Rule.unexpected token ["end of line"]

/-- A round of the lines of a section. -/
def lineRound (spec : Rule Node) (found : List Node) :
    Rule (Rule.Round (List Node) (List Node)) := do
  if ← Rule.isAt .endOfInput then return .done found
  let next ← spec
  endOfLine
  Rule.skipNewlines
  return .again (found ++ [next])

/-- The nodes of all lines of a section. -/
def lines (spec : Rule Node) : Rule (List Node) := do
  Rule.skipNewlines
  Rule.loop (lineRound spec) []

/-- The only declaration of an intent section. -/
def declaration : Rule Node := do
  Rule.skipNewlines
  let first ← Rule.current
  if first.kind = .endOfInput then Rule.refuse .emptyIntent first.span
  let found ← SpecLine.intent
  endOfLine
  Rule.skipNewlines
  let rest ← Rule.current
  if rest.kind ≠ .endOfInput then Rule.refuse .secondDeclaration rest.span
  return found

/-- The body of a section. -/
def body (part : SpecSection) : Rule Node := do
  match part with
  | intent => return .branch .intentSection [← declaration]
  | other => return .branch other.nodeKind (← lines other.line)

end SpecSection

end DocGrammar
