import DocGrammar.Document.Walk
import DocGrammar.Specs.Body
import DocGrammar.Text.Search
import DocGrammar.Token.Code

/-! # Specs documents

A specs document names a feature in a heading of level one and describes it in sections of level
two. The feature comes before every other section. Each section stands alone: when one fails, the
others are still read.

* **`Specs.isHeading`** — whether a section is one that the grammar knows.
* **`Specs.sectionRule`** — the nodes of one section.
* **`Specs.document`** — the tree of a document. -/

namespace DocGrammar

namespace Specs

/-! ## Headings -/

/-- What the title of the feature section starts with. -/
def featureMark : String := "Feature:"

/-- What follows the feature mark in a title, if the title starts with it. -/
def featureTail? (title : String) : Option (List Char) :=
  featureMark.toList.isPrefixOf? title.toList

/-- The section that a title opens. -/
def sectionOf? (title : String) : Option SpecSection := SpecSection.ofTitle? (trimmed title)

/-- Whether a section is one that the grammar knows, so that the walk goes on there. -/
def isHeading (part : Section) : Bool :=
  match part.heading with
  | none => false
  | some heading =>
    (featureTail? heading.title.value).isSome || (sectionOf? heading.title.value).isSome

/-- The titles that the grammar knows. -/
def knownTitles : List String := featureMark :: SpecSection.all.map SpecSection.title

/-! ## The state of the walk -/

/-- A computation on the state of the walk, which remembers whether a section was opened. -/
abbrev SpecsM : Type → Type := WalkM Bool

/-- Whether a section was opened before. -/
def wasOpened : SpecsM Bool := do
  return (← get).memory

/-- Remembers that a section was opened. -/
def markOpened : SpecsM Unit :=
  modify fun state => { state with memory := true }

/-! ## The feature section -/

/-- The node of a feature name behind the mark in a title token. -/
def nameNode (title : Token) (name : String) : Node :=
  let tail := title.value.toList.drop featureMark.length
  let offset := featureMark.length + (offsetOf? name.toList tail).getD 0
  let column := title.column + offset
  .leafOf .featureName name
    ⟨title.span.file, ⟨title.line, column⟩, ⟨title.line, column + name.length - 1⟩⟩

/-- The node of a feature section, whose title goes on with `tail` behind the mark. Only fenced
blocks may stand below the heading. -/
def feature (heading : Heading) (items : List Item) (tail : List Char) : SpecsM Node := do
  let name := String.ofList (trim tail)
  if name.isEmpty then WalkM.refuse .missingFeatureName heading.title.span
  match items.find? (!·.isFenced) with
  | some item => WalkM.refuse .contentAfterFeature item.span
  | none => return .spanning .featureSection [nameNode heading.title name] (some heading.span)

/-! ## Bodies -/

/-- The tokens of a line of a body, with a line end behind them. -/
def lineCode (file : String) (line : Token) : Except Diagnostic (List Token) := do
  let code ← codeTokens .specs file line.span.start line.value
  let behind : Position := ⟨line.line, line.span.stop.column + 1⟩
  return code.filter (·.kind ≠ .endOfInput) ++
    [⟨.newline, "\n", Span.point line.span.file behind⟩]

/-- The tokens of an item of a body. Fenced blocks are prose. -/
def itemCode (file : String) : Item → Except Diagnostic (List Token)
  | .fenced _ => .ok []
  | .link link => .error ⟨.linkInSection, link.span⟩
  | .text block => return (← block.lines.mapM (lineCode file)).flatten

/-- The tokens of a body below a heading, ended by the end-of-input token. -/
def bodyCode (file : String) (heading : Heading) (items : List Item) :
    Except Diagnostic (List Token) := do
  let code := (← items.mapM (itemCode file)).flatten
  let last := (code.getLast?.map Token.span).getD heading.title.span
  let behind : Position := ⟨last.stop.line, last.stop.column + 1⟩
  return code ++ [⟨.endOfInput, "", Span.point last.file behind⟩]

/-- The node of a section of level two. It spans the heading and the body. -/
def bodySection (part : SpecSection) (heading : Heading) (items : List Item) : SpecsM Node := do
  let code ← WalkM.ofExcept (bodyCode (← WalkM.file) heading items)
  let body ← WalkM.runRule part.body code
  return .spanning body.kind body.children
    (some (heading.span.through (body.span.getD heading.span)))

/-! ## Sections and documents -/

/-- The nodes of the preamble: none. Only fenced blocks may stand there. -/
def preamble (items : List Item) : SpecsM (List Node) :=
  match items.find? (!·.isFenced) with
  | some item => WalkM.refuse .contentOutsideSection item.span
  | none => pure []

/-- The nodes of the section below a heading. -/
def headedSection (heading : Heading) (items : List Item) : SpecsM (List Node) := do
  let title := heading.title.value
  match featureTail? title with
  | some tail =>
    if heading.level ≠ 1 then WalkM.refuse .featureLevel heading.span
    if ← wasOpened then WalkM.refuse .featureNotFirst heading.span
    markOpened
    return [← feature heading items tail]
  | none =>
    match sectionOf? title with
    | none => WalkM.refuse (.unknownHeading title knownTitles) heading.title.span
    | some part =>
      if heading.level ≠ 2 then WalkM.refuse (.sectionLevel part.title) heading.span
      markOpened
      return [← bodySection part heading items]

/-- The nodes of a section. -/
def sectionRule (part : Section) : SpecsM (List Node) :=
  match part.heading with
  | none => preamble part.items
  | some heading => headedSection heading part.items

/-- The tree of a specs document. -/
def document (source : Document) : SessionM Node :=
  WalkM.run (do return source.root (← walkSections sectionRule isHeading source.sections)) false

end Specs

end DocGrammar
