import DocGrammar.Diagnostic.Basic
import DocGrammar.Text.Trim

/-! # Documents and their sections

A document is an optional directive and a list of sections. A section is a heading and everything
up to the next heading; what comes before the first heading is the preamble, a section without a
heading at level zero. The items of a section are text blocks, fenced blocks and links. -/

namespace DocGrammar

/-! ## Headings and items -/

/-- A heading. -/
structure Heading where
  /-- The hash signs. -/
  marker : Token
  /-- The title. -/
  title : Token
  deriving DecidableEq, Repr

namespace Heading

/-- The level of a heading: the number of its hash signs. -/
def level (heading : Heading) : Nat := heading.marker.value.length

/-- The span of a heading. -/
def span (heading : Heading) : Span := heading.marker.span.through heading.title.span

end Heading

/-- Lines of text without a blank line between them. -/
structure TextBlock where
  /-- The first line. -/
  first : Token
  /-- The lines after the first. -/
  others : List Token
  deriving DecidableEq, Repr

namespace TextBlock

/-- The lines of a text block. -/
def lines (block : TextBlock) : List Token := block.first :: block.others

/-- The last line of a text block. -/
def last (block : TextBlock) : Token := block.others.getLast?.getD block.first

/-- The text block with one more line. -/
def push (block : TextBlock) (line : Token) : TextBlock :=
  { block with others := block.others ++ [line] }

/-- The text of a text block. -/
def text (block : TextBlock) : String := "\n".intercalate (block.lines.map Token.value)

/-- The span of a text block. -/
def span (block : TextBlock) : Span := block.first.span.through block.last.span

@[simp] theorem lines_push (block : TextBlock) (line : Token) :
    (block.push line).lines = block.lines ++ [line] := by simp [lines, push]

@[simp] theorem last_push (block : TextBlock) (line : Token) : (block.push line).last = line := by
  simp [last, push]

end TextBlock

/-- Lines between two fences. -/
structure FencedBlock where
  /-- The opening fence, whose value is the info text. -/
  opener : Token
  /-- The lines between the fences. -/
  lines : List Token
  /-- The closing fence, unless the document ends before it. -/
  closer : Option Token
  deriving DecidableEq, Repr

namespace FencedBlock

/-- The info text of a fenced block. -/
def info (block : FencedBlock) : String := block.opener.value

/-- The language of a fenced block: the first word of its info text, empty if there is none. -/
def language (block : FencedBlock) : String :=
  String.ofList ((block.info.toList.dropWhile isBlank).takeWhile (!isBlank ·))

/-- The text between the fences. -/
def text (block : FencedBlock) : String := "\n".intercalate (block.lines.map Token.value)

/-- The number of the first line between the fences. -/
def firstLine (block : FencedBlock) : Int :=
  match block.lines with
  | [] => block.opener.line + 1
  | line :: _ => line.line

/-- The span of a fenced block. -/
def span (block : FencedBlock) : Span :=
  block.opener.span.through (block.closer.getD (block.lines.getLast?.getD block.opener)).span

end FencedBlock

/-- A link item. -/
structure ContextLink where
  /-- The hyphen. -/
  bullet : Token
  /-- The target between the brackets. -/
  target : Token
  /-- The description, if there is one. -/
  description : Option Token
  deriving DecidableEq, Repr

namespace ContextLink

/-- The span of a link item. -/
def span (link : ContextLink) : Span :=
  link.bullet.span.through (link.description.getD link.target).span

end ContextLink

/-- An item of a section. -/
inductive Item where
  /-- Lines of text. -/
  | text (block : TextBlock)
  /-- Lines between fences. -/
  | fenced (block : FencedBlock)
  /-- A link. -/
  | link (link : ContextLink)
  deriving DecidableEq, Repr

namespace Item

/-- The span of an item. -/
def span : Item → Span
  | text block => block.span
  | fenced block => block.span
  | link context => context.span

/-- Whether an item is a fenced block, which specs documents treat as prose. -/
def isFenced : Item → Bool
  | fenced _ => true
  | _ => false

end Item

/-! ## Sections and documents -/

/-- A heading with everything up to the next one. -/
structure Section where
  /-- The heading, unless this is the preamble. -/
  heading : Option Heading
  /-- The items below the heading. -/
  items : List Item
  /-- What is wrong with the section whatever its grammar: a fence that the document ends in. -/
  failure : Option Diagnostic
  deriving DecidableEq, Repr

namespace Section

/-- The level of a section: that of its heading, and zero for the preamble. -/
def level (part : Section) : Nat := (part.heading.map Heading.level).getD 0

/-- The title of a section, empty for the preamble. -/
def title (part : Section) : String := (part.heading.map (·.title.value)).getD ""

end Section

/-- The directive that names the grammar of a document. -/
structure Directive where
  /-- The directive line. -/
  token : Token
  /-- The name of the grammar. -/
  grammar : String
  deriving DecidableEq, Repr

/-- A document cut into sections. -/
structure Document where
  /-- The name of the document. -/
  file : String
  /-- The directive, if the document has one. -/
  directive : Option Directive
  /-- The sections, in order. -/
  sections : List Section
  /-- The span of the end of the document. -/
  finish : Span
  deriving DecidableEq, Repr

end DocGrammar
