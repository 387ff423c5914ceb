import DocGrammar.Diagnostic.Cause

/-! # Diagnostics

A diagnostic is a cause at a place. Rules raise diagnostics, the section walk collects them, and a
parse result lists them. -/

namespace DocGrammar

/-- A cause of failure at a place of a document. -/
structure Diagnostic where
  /-- Why the document is refused. -/
  cause : Cause
  /-- Where it is refused. -/
  span : Span
  deriving DecidableEq, Repr

namespace Diagnostic

/-- The class of a diagnostic. -/
def kind (diagnostic : Diagnostic) : FailureKind := diagnostic.cause.kind

/-- The wording of a diagnostic. -/
def message (diagnostic : Diagnostic) : String := diagnostic.cause.message

/-- What would have been accepted instead. -/
def expected (diagnostic : Diagnostic) : List String := diagnostic.cause.expected

/-- The code of a diagnostic. -/
def code (diagnostic : Diagnostic) : String := diagnostic.kind.code

/-- The place and the wording of a diagnostic. -/
def located (diagnostic : Diagnostic) : String :=
  diagnostic.span.display ++ ": " ++ diagnostic.message

/-- The place, the class and the wording of a diagnostic. -/
def display (diagnostic : Diagnostic) : String :=
  diagnostic.span.display ++ ": " ++ diagnostic.kind.name ++ ": " ++ diagnostic.message

/-- The message that sums up the diagnostics of a failed parse. -/
def summary (diagnostics : List Diagnostic) : String :=
  toString diagnostics.length ++ " error(s): " ++ "; ".intercalate (diagnostics.map message)

end Diagnostic

end DocGrammar
