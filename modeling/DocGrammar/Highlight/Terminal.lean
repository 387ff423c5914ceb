import DocGrammar.Highlight.Piece
import DocGrammar.Text.Lines

/-! # Highlighting for a terminal

A highlighted text is written with the codes of its scopes. A colour never spans a line end, so
that each line can be shown on its own. -/

namespace DocGrammar

/-- The code that ends a colour. -/
def colorReset : String := "\x1b[39;49;00m"

/-- The lines of a text, each with its line break. -/
def keptLines : List Char → List (List Char)
  | [] => []
  | '\r' :: '\n' :: rest => ['\r', '\n'] :: keptLines rest
  | char :: rest =>
    if isLineBreak char then [char] :: keptLines rest
    else
      match keptLines rest with
      | [] => [[char]]
      | line :: lines => (char :: line) :: lines

/-- A line in the given codes, with a line feed at its end outside of them. -/
def coloredLine (codes : String) (line : List Char) : String :=
  let content := dropTailWhile (· = '\n') line
  let feeds := String.ofList (line.drop content.length)
  if codes.isEmpty then String.ofList content ++ feeds
  else codes ++ String.ofList content ++ colorReset ++ feeds

/-- A piece with the codes of its scope. -/
def Piece.colored (piece : Piece) : String :=
  String.join ((keptLines piece.text).map (coloredLine piece.scope.codes))

/-- A text highlighted by a table for a terminal. -/
def Highlighter.terminal (highlighter : Highlighter) (text : String) : String :=
  String.join ((highlighter.pieces (highlightInput text)).map Piece.colored)

end DocGrammar
