import DocGrammar.Text.Search
import DocGrammar.Text.Trim

/-! # Shapes of document lines

Outside fenced blocks, the characters of a line decide its shape: blank, directive, heading,
comment, fence, link or plain. A shape keeps the pieces of the line and their offsets, so that
tokens can be placed without looking at the line again.

* **`LineShape.ofLine`** finds the shape of a line.
* **`closesFence`** tells whether a line inside a fenced block ends it. -/

namespace DocGrammar

/-! ## Pieces of lines -/

/-- Whether a character is a space or a tab. -/
def isGap (char : Char) : Bool :=
  char = ' ' || char = '\t'

/-- The number of white-space characters that a line starts with. -/
def indentWidth (line : List Char) : Nat :=
  (line.takeWhile isBlank).length

/-! ## Headings -/

/-- The pieces of a heading line. -/
structure HeadingPieces where
  /-- The number of hash signs, from one to six. -/
  level : Nat
  /-- The number of spaces and tabs behind them. -/
  gap : Nat
  /-- The title, without white space at either end. -/
  title : List Char
  deriving DecidableEq, Repr

/-- The pieces of a line that is a heading: one to six hash signs, a gap, and a title. -/
def headingPieces? (line : List Char) : Option HeadingPieces :=
  let level := (line.takeWhile (· = '#')).length
  let behindMarker := line.drop level
  let gap := (behindMarker.takeWhile isGap).length
  let title := trimEnd (behindMarker.drop gap)
  match behindMarker.drop gap with
  | [] => none
  | first :: _ =>
    if 1 ≤ level && level ≤ 6 && 1 ≤ gap && !isBlank first then some ⟨level, gap, title⟩ else none

/-! ## Fences -/

/-- The pieces of a line that opens a fenced block. -/
structure FencePieces where
  /-- The number of spaces and tabs before the backticks, at most three. -/
  indent : Nat
  /-- The number of backticks, at least three. -/
  ticks : Nat
  /-- What stands behind the backticks, without white space at either end. -/
  info : List Char
  deriving DecidableEq, Repr

/-- Whether a character is the backtick that fences are made of. -/
def isBacktick (char : Char) : Bool :=
  char = '\x60'

/-- The pieces of a line that opens a fenced block. -/
def fencePieces? (line : List Char) : Option FencePieces :=
  let indent := (line.takeWhile isGap).length
  let behindIndent := line.drop indent
  let ticks := (behindIndent.takeWhile isBacktick).length
  if indent ≤ 3 && 3 ≤ ticks then some ⟨indent, ticks, trim (behindIndent.drop ticks)⟩ else none

/-- Whether a line closes a fenced block that `ticks` backticks opened: it holds at least as many
backticks and nothing else but white space around them. -/
def closesFence (ticks : Nat) (line : List Char) : Bool :=
  let content := trim line
  ticks ≤ content.length && !content.isEmpty && content.all isBacktick

/-! ## Links -/

/-- The pieces of a link item. -/
structure LinkPieces where
  /-- The number of spaces and tabs before the hyphen. -/
  indent : Nat
  /-- The number of spaces and tabs between the hyphen and the bracket. -/
  gap : Nat
  /-- What stands between the brackets. -/
  target : List Char
  /-- What stands behind the closing bracket. -/
  tail : List Char
  deriving DecidableEq, Repr

/-- The pieces of a line that is a link item: a hyphen, a gap, a target between brackets. -/
def linkPieces? (line : List Char) : Option LinkPieces :=
  let indent := (line.takeWhile isGap).length
  match line.drop indent with
  | '-' :: behindHyphen =>
    let gap := (behindHyphen.takeWhile isGap).length
    match behindHyphen.drop gap with
    | '[' :: behindBracket =>
      let target := behindBracket.takeWhile (· ≠ ']')
      match behindBracket.drop target.length with
      | ']' :: tail =>
        if gap = 0 || target.isEmpty then none else some ⟨indent, gap, target, tail⟩
      | _ => none
    | _ => none
  | _ => none

namespace LinkPieces

/-- The description of a link: what follows the target, without a hyphen before it. -/
def description (pieces : LinkPieces) : List Char :=
  match trim pieces.tail with
  | '-' :: rest => trim rest
  | content => content

/-- The offset of the opening bracket in the line. -/
def openOffset (pieces : LinkPieces) : Nat := pieces.indent + 1 + pieces.gap

/-- The offset of the closing bracket in the line. -/
def closeOffset (pieces : LinkPieces) : Nat := pieces.openOffset + 1 + pieces.target.length

/-- The offset of the description: that of its first occurrence behind the closing bracket. -/
def descriptionOffset (pieces : LinkPieces) : Nat :=
  pieces.closeOffset + 1 + (offsetOf? pieces.description pieces.tail).getD 0

end LinkPieces

/-! ## Shapes -/

/-- The shape of a line outside fenced blocks. -/
inductive LineShape where
  /-- A line of white space only. -/
  | blank
  /-- The directive line. -/
  | shebang
  /-- A heading. -/
  | heading (pieces : HeadingPieces)
  /-- A line that starts with a hash sign but is no heading. -/
  | comment
  /-- A line that opens a fenced block. -/
  | fence (pieces : FencePieces)
  /-- A link item. -/
  | link (pieces : LinkPieces)
  /-- Any other line. -/
  | plain
  deriving DecidableEq, Repr

/-- The shape of a line. Only the first line of a document can be a directive. -/
def LineShape.ofLine (isFirst : Bool) (line : List Char) : LineShape :=
  if line.all isBlank then .blank
  else if isFirst && ['#', '!'].isPrefixOf line then .shebang
  else if line.head? = some '#' then
    match headingPieces? line with
    | some pieces => .heading pieces
    | none => .comment
  else
    match fencePieces? line, linkPieces? line with
    | some pieces, _ => .fence pieces
    | none, some pieces => .link pieces
    | none, none => .plain

end DocGrammar
