import DocGrammar.Text.Trim
import DocGrammar.Text.Quoted
import DocGrammar.Text.Word
import DocGrammar.Tree.Outline

/-! # Reading outlines

An outline is written as nested parentheses: a kind, then the text and the children in any order,
each child with its field name and a colon before it if it has one. Reading first cuts the text
into pieces and then keeps a stack of the nodes that are open.

* **`OutlinePiece.all`** — the pieces of a text.
* **`Outline.read`** — the outline that a text writes, or why it writes none. -/

namespace DocGrammar

/-! ## Errors -/

/-- Why a text writes no outline. -/
inductive OutlineError where
  /-- A text that is no piece, up to twenty characters of it. -/
  | unexpectedText (start : String)
  /-- No parenthesis where a node has to start. -/
  | missingParenthesis
  /-- No kind behind an opening parenthesis. -/
  | missingKind
  /-- A node without its closing parenthesis. -/
  | unclosed (kind : String)
  /-- A node with two texts. -/
  | secondText (kind : String)
  /-- A kind inside a node but not behind a parenthesis. -/
  | strayKind (found kind : String)
  /-- Something behind the outline. -/
  | trailing (found : String)
  /-- A text literal with an unknown escape or a bare control character. -/
  | malformedLiteral
  deriving DecidableEq, Repr

/-- The wording of a reading error. -/
def OutlineError.message : OutlineError → String
  | unexpectedText start => "unexpected text in expected tree: " ++ quoted start
  | missingParenthesis => "expected '('"
  | missingKind => "expected a node kind after '('"
  | unclosed kind => "unclosed '(' for " ++ quoted kind
  | secondText kind => quoted kind ++ " has more than one literal"
  | strayKind found kind => "unexpected " ++ quoted found ++ " in " ++ quoted kind
  | trailing found => "trailing content after expected tree: " ++ quoted found
  | malformedLiteral => "malformed literal"

/-! ## Pieces -/

/-- A piece of a written outline. -/
inductive OutlinePiece where
  /-- An opening parenthesis. -/
  | opening
  /-- A closing parenthesis. -/
  | closing
  /-- A field name, written with a colon behind it. -/
  | field (name : String)
  /-- A kind. -/
  | kind (name : String)
  /-- The characters between the quotes of a text literal. -/
  | literal (content : List Char)
  deriving DecidableEq, Repr

namespace OutlinePiece

/-- What messages show of a piece. -/
def display : OutlinePiece → String
  | opening => "("
  | closing => ")"
  | field name => name
  | kind name => name
  | literal content => String.ofList ('"' :: content ++ ['"'])

/-- Whether a name may start with a character. -/
def isNameStart (char : Char) : Bool := isAsciiLetter char || char = '_'

/-- Whether a name may continue with a character. -/
def isNameChar (char : Char) : Bool := isWordChar char || char = '-'

/-- The characters up to the closing quote of a literal, from behind its opening quote. A
backslash keeps the character behind it from closing the literal. -/
def literalContent? : List Char → Option (List Char)
  | [] => none
  | '"' :: _ => some []
  | ['\\'] => none
  | '\\' :: char :: rest =>
    if char = '\n' then none else (literalContent? rest).map ('\\' :: char :: ·)
  | char :: rest => (literalContent? rest).map (char :: ·)

/-- The piece that a text starts with, and the number of its characters behind the first one. -/
def scan? (char : Char) (rest : List Char) : Option (OutlinePiece × Nat) :=
  if char = '(' then some (opening, 0)
  else if char = ')' then some (closing, 0)
  else if char = '"' then
    (literalContent? rest).map fun content => (literal content, content.length + 1)
  else if isNameStart char then
    let more := rest.takeWhile isNameChar
    let name := String.ofList (char :: more)
    if (rest.drop more.length).head? = some ':' then some (field name, more.length + 1)
    else some (kind name, more.length)
  else none

/-- The pieces of a text. White space separates pieces and is otherwise ignored. -/
def all : List Char → Except OutlineError (List OutlinePiece)
  | [] => .ok []
  | char :: rest =>
    if isBlank char then all rest
    else
      match scan? char rest with
      | none => .error (.unexpectedText (String.ofList ((char :: rest).take 20)))
      | some (piece, extra) => do
        return piece :: (← all (rest.drop extra))
termination_by chars => chars.length
decreasing_by all_goals simp only [List.length_drop, List.length_cons]; omega

end OutlinePiece

/-! ## Outlines -/

namespace Outline

/-- What the next piece may be. -/
inductive Awaited where
  /-- The opening parenthesis of a node under the given field. -/
  | node (field : Option String)
  /-- The kind of a node under the given field. -/
  | kind (field : Option String)
  /-- The content of the innermost open node. -/
  | content
  deriving DecidableEq, Repr

/-- The outline with one more child. -/
def addChild (outline child : Outline) : Outline :=
  { outline with children := outline.children ++ [child] }

/-- The outline that some pieces write, when the nodes `open` are open, the innermost first. -/
def ofPieces : Awaited → List Outline → List OutlinePiece → Except OutlineError Outline
  | .node field, outer, .opening :: rest => ofPieces (.kind field) outer rest
  | .node _, _, _ => .error .missingParenthesis
  | .kind field, outer, .kind name :: rest =>
    ofPieces .content (⟨name, none, field, []⟩ :: outer) rest
  | .kind _, _, _ => .error .missingKind
  | .content, [], _ => .error .missingParenthesis
  | .content, inner :: _, [] => .error (.unclosed inner.kind)
  | .content, inner :: outer, piece :: rest =>
    match piece with
    | .closing =>
      match outer, rest with
      | parent :: others, _ => ofPieces .content (parent.addChild inner :: others) rest
      | [], [] => .ok inner
      | [], next :: _ => .error (.trailing next.display)
    | .literal content =>
      if inner.text.isSome then .error (.secondText inner.kind)
      else
        match Literal.decode? content with
        | none => .error .malformedLiteral
        | some text => ofPieces .content ({ inner with text := some text } :: outer) rest
    | .field name => ofPieces (.node (some name)) (inner :: outer) rest
    | .opening => ofPieces (.kind none) (inner :: outer) rest
    | .kind name => .error (.strayKind name inner.kind)

/-- The outline that a text writes. -/
def read (text : String) : Except OutlineError Outline := do
  ofPieces (.node none) [] (← OutlinePiece.all text.toList)

end Outline

end DocGrammar
