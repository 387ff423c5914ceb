import DocGrammar.Document.Walk
import DocGrammar.Pseudo.Statement
import DocGrammar.Token.Code

/-! # Pseudo-kernel documents

A pseudo-kernel document is plain markdown. Its headings, paragraphs and links become nodes as
they stand. The language of a fenced block decides what it holds: statements of pseudo code,
formulas, or lines of other code. -/

namespace DocGrammar

namespace Pseudo

/-- A computation on the state of the walk, which remembers nothing between sections. -/
abbrev PseudoM : Type → Type := WalkM Unit

/-- The language of fenced blocks that hold statements. -/
def statementLanguage : String := "pseudo"

/-- The language of fenced blocks that hold formulas. -/
def formulaLanguage : String := "latex"

/-! ## Items -/

/-- The node of a link. -/
def linkNode (link : ContextLink) : Node :=
  .spanning .contextLink
    (.leaf .linkTarget link.target :: (link.description.map (Node.leaf .linkDescription)).toList)
    (some link.span)

/-- The lines of a fenced block that are not blank, as leaves. -/
def lineLeaves (kind : NodeKind) (block : FencedBlock) : List Node :=
  (block.lines.filter fun line => !isBlankText line.value).map (Node.leaf kind)

/-- The node of a fenced block that holds neither statements nor formulas. -/
def codeNode (block : FencedBlock) : Node :=
  let language : List Node :=
    if block.language.isEmpty then []
    else [.leafOf .languageIdentifier block.language block.opener.span]
  .spanning .codeBlock (language ++ lineLeaves .codeLine block) (some block.span)

/-- The node of a fenced block. -/
def fencedNode (block : FencedBlock) : PseudoM Node := do
  if block.language = statementLanguage then
    let code ← WalkM.ofExcept
      (codeTokens .pseudo (← WalkM.file) ⟨block.firstLine, 1⟩ block.text)
    return .spanning .pseudoCodeBlock (← WalkM.runRule Statement.all code) (some block.span)
  if block.language = formulaLanguage then
    return .spanning .mathBlock (lineLeaves .latexLine block) (some block.span)
  return codeNode block

/-- The node of an item. -/
def itemNode : Item → PseudoM Node
  | .text block => pure (.leafOf .paragraph block.text block.span)
  | .link link => pure (linkNode link)
  | .fenced block => fencedNode block

/-! ## Sections and documents -/

/-- The node of a heading. -/
def headingNode (heading : Heading) : Node :=
  .leafOf .markdownHeader heading.title.value heading.span

/-- The nodes of a section: its heading and its items. -/
def sectionRule (part : Section) : PseudoM (List Node) := do
  return (part.heading.map headingNode).toList ++ (← part.items.mapM itemNode)

/-- The tree of a pseudo-kernel document. A failed section takes all deeper ones with it. -/
def document (source : Document) : SessionM Node :=
  WalkM.run (do return source.root (← walkSections sectionRule (fun _ => false) source.sections)) ()

end Pseudo

end DocGrammar
