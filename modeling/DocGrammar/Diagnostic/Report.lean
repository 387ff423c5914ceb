import DocGrammar.Diagnostic.Basic
import DocGrammar.Source.Listing

/-! # Diagnostic reports

A report shows a diagnostic over several lines: a header with its code, the place, the source line
with carets below the span, and the accepted alternatives. Colours are terminal codes and can be
left out. -/

namespace DocGrammar

/-! ## Colours -/

/-- The terminal codes of a report. -/
structure Palette where
  /-- The code of the header's first part and of the carets. -/
  alarm : String
  /-- The code of the message. -/
  bold : String
  /-- The code of the margin. -/
  margin : String
  /-- The code that ends a colour. -/
  reset : String

namespace Palette

/-- The palette of a report without colours. -/
def plain : Palette := ⟨"", "", "", ""⟩

/-- The palette of a coloured report. -/
def colored : Palette := ⟨"\x1b[1;31m", "\x1b[1m", "\x1b[1;34m", "\x1b[0m"⟩

/-- The palette with or without colours. -/
def ofFlag (color : Bool) : Palette := if color then colored else plain

end Palette

/-! ## Reports -/

/-- The text `text` repeated `count` times. -/
def repeated (count : Nat) (text : String) : String :=
  String.join (List.replicate count text)

/-- A number at the right end of a field of four columns. -/
def gutterNumber (number : Int) : String :=
  let digits := toString number
  repeated (4 - digits.length) " " ++ digits

/-- The number of carets below a span that starts on the line `source`. -/
def Span.caretCount (span : Span) (source : String) : Nat :=
  let last := if span.start.line = span.stop.line then span.stop.column else source.length
  max 1 (last - span.start.column + 1).toNat

namespace Diagnostic

/-- The source line of a diagnostic, from the listing of its file. -/
def sourceLine? (diagnostic : Diagnostic) (listings : List Listing) : Option String := do
  let listing ← listings.find? fun listing => listing.file == diagnostic.span.file
  listing.line? diagnostic.span.start.line

/-- The source line of a report and the carets below it. -/
def excerpt (diagnostic : Diagnostic) (palette : Palette) (source : String) : List String :=
  let span := diagnostic.span
  let indent := repeated (span.start.column - 1).toNat " "
  let carets := repeated (span.caretCount source) "^"
  ["  " ++ palette.margin ++ gutterNumber span.start.line ++ " |" ++ palette.reset ++ " " ++ source,
    "  " ++ palette.margin ++ "   |" ++ palette.reset ++ " " ++ indent ++ palette.alarm ++ carets ++
      palette.reset]

/-- The lines of a report. -/
def reportLines (diagnostic : Diagnostic) (palette : Palette) (listings : List Listing) :
    List String :=
  [palette.alarm ++ "error[" ++ diagnostic.code ++ "]" ++ palette.reset ++ palette.bold ++ ": " ++
      diagnostic.message ++ palette.reset,
    "  " ++ palette.margin ++ "-->" ++ palette.reset ++ " " ++ diagnostic.span.display,
    "  " ++ palette.margin ++ "   |" ++ palette.reset] ++
  ((diagnostic.sourceLine? listings).map (diagnostic.excerpt palette)).getD [] ++
  (if diagnostic.expected.isEmpty then []
    else ["  " ++ palette.margin ++ "=" ++ palette.reset ++ " expected one of: " ++
      ", ".intercalate diagnostic.expected])

/-- The report of a diagnostic. -/
def report (diagnostic : Diagnostic) (palette : Palette) (listings : List Listing) : String :=
  "\n".intercalate (diagnostic.reportLines palette listings)

end Diagnostic

end DocGrammar
