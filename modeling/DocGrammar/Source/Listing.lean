import DocGrammar.Source.Span
import DocGrammar.Text.Lines

/-! # Source listings

A diagnostic quotes the source line that it points at. A listing is the named text of a document,
cut into lines for that purpose. -/

namespace DocGrammar

/-- The lines of a named document. -/
structure Listing where
  /-- The name of the document, as spans give it. -/
  file : String
  /-- The lines of the document. -/
  lines : List String
  deriving DecidableEq, Repr

namespace Listing

/-- The listing of a text. -/
def ofText (file text : String) : Listing := ⟨file, textLines text⟩

/-- The line of a given number, counted from one. -/
def line? (listing : Listing) (number : Int) : Option String :=
  if 1 ≤ number then listing.lines[(number - 1).toNat]? else none

/-- The line of a given number, empty where the listing has none. -/
def lineAt (listing : Listing) (number : Int) : String :=
  (listing.line? number).getD ""

end Listing

end DocGrammar
