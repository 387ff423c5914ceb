import DocGrammar.Diagnostic.Basic
import DocGrammar.Text.Lines
import DocGrammar.Token.LineShape

/-! # Document tokens

The first level of reading: every line of a document becomes a few tokens, according to its shape
and to whether it stands inside a fenced block.

* **`lineTokens`** — the tokens of one line, and the fence that is open behind it.
* **`documentTokens`** — the tokens of a whole document, ended by the end-of-input token. -/

namespace DocGrammar

/-! ## Placing tokens -/

/-- The token that starts at an offset of a line and spans `width` characters, at least one. -/
def tokenAt (file : String) (number : Nat) (kind : TokenKind) (value : List Char)
    (offset width : Nat) : Token :=
  ⟨kind, String.ofList value,
    ⟨file, ⟨number, offset + 1⟩, ⟨number, max (offset + 1) (offset + width)⟩⟩⟩

/-- The token of a line's end, just behind its last character. -/
def lineEndToken (file : String) (number : Nat) (line : List Char) : Token :=
  tokenAt file number .newline ['\n'] line.length 1

/-! ## The tokens of a line -/

/-- The tokens of a link item. -/
def linkTokens (file : String) (number : Nat) (pieces : LinkPieces) : List Token :=
  [tokenAt file number .listBullet ['-'] pieces.indent 1,
    tokenAt file number .linkOpen ['['] pieces.openOffset 1,
    tokenAt file number .text (trim pieces.target) (pieces.openOffset + 1) pieces.target.length,
    tokenAt file number .linkClose [']'] pieces.closeOffset 1] ++
  (if pieces.description.isEmpty then []
    else [tokenAt file number .text pieces.description pieces.descriptionOffset
      pieces.description.length])

/-- The tokens of a line outside fenced blocks. -/
def shapeTokens (file : String) (number : Nat) (line : List Char) : LineShape → List Token
  | .blank => []
  | .shebang => [tokenAt file number .shebang line 0 line.length, lineEndToken file number line]
  | .heading pieces =>
    [tokenAt file number .headingMarker (line.take pieces.level) 0 pieces.level,
      tokenAt file number .text pieces.title (pieces.level + pieces.gap) pieces.title.length,
      lineEndToken file number line]
  | .comment =>
    [tokenAt file number .comment (trimEnd line) 0 (trimEnd line).length,
      lineEndToken file number line]
  | .fence pieces =>
    [tokenAt file number .fenceMarker pieces.info pieces.indent
        ((trimEnd line).length - pieces.indent),
      lineEndToken file number line]
  | .link pieces => linkTokens file number pieces ++ [lineEndToken file number line]
  | .plain =>
    [tokenAt file number .line (trim line) (indentWidth line) (trim line).length,
      lineEndToken file number line]

/-- The tokens of a line, and the number of backticks of the fence that is open behind it. -/
def lineTokens (file : String) (number : Nat) (line : List Char) :
    Option Nat → List Token × Option Nat
  | some ticks =>
    if closesFence ticks line then
      ([tokenAt file number .fenceMarker [] (indentWidth line) (trim line).length,
        lineEndToken file number line], none)
    else ([tokenAt file number .codeLine line 0 line.length], some ticks)
  | none =>
    let shape := LineShape.ofLine (number = 1) line
    let openFence :=
      match shape with
      | .fence pieces => some pieces.ticks
      | _ => none
    (shapeTokens file number line shape, openFence)

/-! ## The tokens of a document -/

/-- Whether a character may not stand in a document: a control other than tab, line feed and
carriage return. -/
def isForbidden (char : Char) : Bool :=
  (char < ' ' && char ≠ '\t' && char ≠ '\r') || char = Char.ofNat 0x7f

/-- The diagnostic of the first forbidden character of a line. -/
def forbiddenCharacter? (file : String) (number : Nat) (line : List Char) : Option Diagnostic :=
  match line.dropWhile (!isForbidden ·) with
  | [] => none
  | char :: _ =>
    let offset := (line.takeWhile (!isForbidden ·)).length
    some ⟨.unexpectedCharacter char, Span.point file ⟨number, offset + 1⟩⟩

/-- The tokens of the lines from line `number` on, with `openFence` open before them. -/
def tokensOfLines (file : String) :
    Option Nat → Nat → List (List Char) → Except Diagnostic (List Token)
  | _, _, [] => .ok []
  | openFence, number, raw :: others =>
    let line := dropReturn raw
    match forbiddenCharacter? file number line with
    | some diagnostic => .error diagnostic
    | none => do
      let (tokens, nextFence) := lineTokens file number line openFence
      return tokens ++ (← tokensOfLines file nextFence (number + 1) others)

/-- The token of the end of a document with the given lines, behind its last character. -/
def documentEnd (file : String) (lines : List (List Char)) : Token :=
  tokenAt file lines.length .endOfInput [] (lines.getLast?.getD []).length 0

/-- The document tokens of a text. -/
def documentTokens (file text : String) : Except Diagnostic (List Token) := do
  let lines := feedLines text.toList
  return (← tokensOfLines file none 1 lines) ++ [documentEnd file lines]

end DocGrammar
