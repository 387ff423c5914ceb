import DocGrammar.Document.Basic
import DocGrammar.Document.GrammarName

/-! # Cutting a document into sections

Document tokens are read one by one. What a token means depends on the region it stands in: prose,
the middle of a heading or of a link, or a fenced block. The sections read so far are kept in a
draft.

* **`Draft.step`** — what one token does to region and draft.
* **`Document.splitDirective`** — the directive before the sections.
* **`Document.ofTokens`** — the document of a token list, or the first misplaced token. -/

namespace DocGrammar

/-! ## Regions and drafts -/

/-- Where in a document a token is read. -/
inductive Region where
  /-- Between the items of a section. -/
  | prose
  /-- Behind the marker of a heading. -/
  | headingTitle (marker : Token)
  /-- Behind the hyphen of a link. -/
  | linkOpening (bullet : Token)
  /-- Behind the opening bracket of a link. -/
  | linkTarget (bullet : Token)
  /-- Behind the target of a link. -/
  | linkClosing (bullet target : Token)
  /-- Behind the closing bracket of a link, before its description. -/
  | linkDescription (bullet target : Token)
  /-- Inside a fenced block, behind the given lines. -/
  | fence (opener : Token) (lines : List Token)
  deriving DecidableEq, Repr

/-- The sections read so far. -/
structure Draft where
  /-- The sections that are complete, in order. -/
  complete : List Section
  /-- The heading of the section being read, unless that is the preamble. -/
  heading : Option Heading
  /-- The items of the section being read, in order. -/
  items : List Item
  deriving DecidableEq, Repr

namespace Draft

/-- The draft before the first token. -/
def empty : Draft := ⟨[], none, []⟩

/-- The draft with one more item. -/
def addItem (draft : Draft) (item : Item) : Draft :=
  { draft with items := draft.items ++ [item] }

/-- The draft with one more line of text: it joins the text block on the line before. -/
def addLine (draft : Draft) (line : Token) : Draft :=
  match draft.items.getLast? with
  | some (.text block) =>
    if block.last.line = line.line - 1 then
      { draft with items := draft.items.dropLast ++ [.text (block.push line)] }
    else draft.addItem (.text ⟨line, []⟩)
  | _ => draft.addItem (.text ⟨line, []⟩)

/-- The draft with a new section. -/
def openSection (draft : Draft) (heading : Heading) : Draft :=
  ⟨draft.complete ++ [⟨draft.heading, draft.items, none⟩], some heading, []⟩

/-! ## Reading tokens -/

/-- The diagnostic of a token that stands where another kind is called for. -/
def missing (wanted : TokenKind) (found : Token) : Diagnostic :=
  ⟨.missingToken wanted found.kind, found.span⟩

/-- The diagnostic of a token that cannot stand where it does. -/
def misplaced (found : Token) : Diagnostic :=
  ⟨.misplacedToken found.kind, found.span⟩

/-- What a token between items does. -/
def proseStep (draft : Draft) (token : Token) : Except Diagnostic (Region × Draft) :=
  match token.kind with
  | .newline | .comment => .ok (.prose, draft)
  | .headingMarker => .ok (.headingTitle token, draft)
  | .fenceMarker => .ok (.fence token [], draft)
  | .line => .ok (.prose, draft.addLine token)
  | .listBullet => .ok (.linkOpening token, draft)
  | _ => .error (misplaced token)

/-- What a token does in a region. -/
def step (draft : Draft) (token : Token) : Region → Except Diagnostic (Region × Draft)
  | .prose => draft.proseStep token
  | .headingTitle marker =>
    if token.kind = .text then .ok (.prose, draft.openSection ⟨marker, token⟩)
    else .error (missing .text token)
  | .linkOpening bullet =>
    if token.kind = .linkOpen then .ok (.linkTarget bullet, draft)
    else .error (missing .linkOpen token)
  | .linkTarget bullet =>
    if token.kind = .text then .ok (.linkClosing bullet token, draft)
    else .error (missing .text token)
  | .linkClosing bullet target =>
    if token.kind = .linkClose then .ok (.linkDescription bullet target, draft)
    else .error (missing .linkClose token)
  | .linkDescription bullet target =>
    if token.kind = .text then .ok (.prose, draft.addItem (.link ⟨bullet, target, some token⟩))
    else (draft.addItem (.link ⟨bullet, target, none⟩)).proseStep token
  | .fence opener lines =>
    match token.kind with
    | .codeLine => .ok (.fence opener (lines ++ [token]), draft)
    | .newline => .ok (.fence opener lines, draft)
    | .fenceMarker => .ok (.prose, draft.addItem (.fenced ⟨opener, lines, some token⟩))
    | _ => .error (misplaced token)

/-! ## The end of a document -/

/-- The last section of a document that ends in a region, or nothing if it cannot end there. -/
def lastSection? (draft : Draft) : Region → Option Section
  | .prose => some ⟨draft.heading, draft.items, none⟩
  | .linkDescription bullet target =>
    some ⟨draft.heading, draft.items ++ [.link ⟨bullet, target, none⟩], none⟩
  | .fence opener lines =>
    some ⟨draft.heading, draft.items ++ [.fenced ⟨opener, lines, none⟩],
      some ⟨.unterminatedFence, opener.span⟩⟩
  | _ => none

/-- The sections behind a region and a draft. They end at the end-of-input token. -/
def sections (draft : Draft) (region : Region) : List Token → Except Diagnostic (List Section)
  | [] => .ok (draft.complete ++ (draft.lastSection? region).toList)
  | token :: rest =>
    match if token.kind = .endOfInput then draft.lastSection? region else none with
    | some last => .ok (draft.complete ++ [last])
    | none => do
      let (next, extended) ← draft.step token region
      extended.sections next rest

end Draft

/-! ## Documents -/

namespace Document

/-- The sections without a preamble that holds nothing. -/
def dropEmptyPreamble : List Section → List Section
  | ⟨none, [], _⟩ :: others => others
  | all => all

/-- The directive that some document tokens start with, if they do, and the tokens behind it. -/
def splitDirective : List Token → Except Diagnostic (Option Directive × List Token)
  | [] => .ok (none, [])
  | token :: rest =>
    if token.kind = .shebang then
      match grammarNameOf? token.value.toList with
      | none => .error ⟨.malformedShebang token.value, token.span⟩
      | some grammar => .ok (some ⟨token, grammar⟩, rest)
    else .ok (none, token :: rest)

/-- The document of a list of document tokens. -/
def ofTokens (file : String) (tokens : List Token) : Except Diagnostic Document := do
  let finish := (tokens.getLast?.map Token.span).getD (Span.fileStart file)
  let (directive, rest) ← splitDirective tokens
  let sections ← Draft.empty.sections .prose rest
  return ⟨file, directive, dropEmptyPreamble sections, finish⟩

end Document

end DocGrammar
