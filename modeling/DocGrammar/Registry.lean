import DocGrammar.Document.GrammarName
import DocGrammar.Pseudo.Document
import DocGrammar.Specs.Document

/-! # Registered grammars

A registry maps names to grammars. An entry is added once and never replaced. Names are listed in
alphabetical order, whatever the order in which they were added.

* **`Registry.register`** adds a grammar, **`Registry.resolve`** looks one up.
* **`Registry.builtIn`** holds the two grammars of this library. -/

namespace DocGrammar

/-- A grammar under its name. -/
structure Grammar where
  /-- The name that a directive selects the grammar by. -/
  name : String
  /-- The rule of a whole document. -/
  document : Document → SessionM Node
  /-- What the grammar is for. -/
  description : String

/-- Grammars under distinct names, in the order in which they were added. -/
structure Registry where
  /-- The grammars. -/
  grammars : List Grammar

/-- Why a grammar cannot be registered. -/
inductive RegistrationError where
  /-- The name is no grammar name. -/
  | invalidName (name : String)
  /-- The name is taken. -/
  | taken (name : String)
  deriving DecidableEq, Repr

/-- The wording of a refused registration. -/
def RegistrationError.message : RegistrationError → String
  | invalidName name => "invalid grammar name " ++ quoted name ++ ": must match [a-z][a-z0-9-]*"
  | taken name => "grammar " ++ quoted name ++ " is already registered"

namespace Registry

/-- The registry without grammars. -/
def empty : Registry := ⟨[]⟩

/-- The grammar of a given name. -/
def find? (registry : Registry) (name : String) : Option Grammar :=
  registry.grammars.find? fun grammar => grammar.name == name

/-- Whether a name is registered. -/
def contains (registry : Registry) (name : String) : Bool :=
  (registry.find? name).isSome

/-- The number of registered grammars. -/
def size (registry : Registry) : Nat := registry.grammars.length

/-- The registered grammars in the alphabetical order of their names. -/
def sorted (registry : Registry) : List Grammar :=
  registry.grammars.mergeSort fun first second => decide (first.name ≤ second.name)

/-- The registered names in alphabetical order. -/
def names (registry : Registry) : List String := registry.sorted.map Grammar.name

/-- The registry with one more grammar, if its name is valid and free. -/
def register (registry : Registry) (grammar : Grammar) : Except RegistrationError Registry :=
  if !isGrammarName grammar.name then .error (.invalidName grammar.name)
  else if registry.contains grammar.name then .error (.taken grammar.name)
  else .ok ⟨registry.grammars ++ [grammar]⟩

/-- The grammar of a name. An unknown name is refused at the span, or at the start of a nameless
text if there is none. -/
def resolve (registry : Registry) (name : String) (span : Option Span) :
    Except Diagnostic Grammar :=
  match registry.find? name with
  | some grammar => .ok grammar
  | none =>
    .error ⟨.unknownGrammar name registry.names, span.getD (Span.fileStart inputFile)⟩

end Registry

/-! ## The grammars of this library -/

/-- The grammar of specs documents. -/
def Grammar.specs : Grammar where
  name := "specs"
  document := Specs.document
  description :=
    "Feature / Intent / Inputs / Outputs / Examples / Constraints / Invariants requirement documents"

/-- The grammar of pseudo-kernel documents. -/
def Grammar.pseudoKernel : Grammar where
  name := "pseudo-kernel"
  document := Pseudo.document
  description := "markdown with context links and fenced pseudo-code"

/-- The registry of the grammars of this library. -/
def Registry.builtIn : Registry := ⟨[Grammar.specs, Grammar.pseudoKernel]⟩

end DocGrammar
