import DocGrammar.Highlight.Rules
import DocGrammar.Text.Lines
import DocGrammar.Text.Trim

/-! # Pieces of highlighted text

A highlighter cuts a text into pieces with a scope each. Where no rule matches, a single character
is cut off: a line feed as white space, which also ends an open string, anything else as an error.

* **`Highlighter.pieces`** — the pieces of a text.
* **`highlightInput`** — the text that is cut: with line feeds as the only line ends, and exactly
  one at the end.
* **`Highlighter.find?`** — the table for a grammar. -/

namespace DocGrammar

/-- A piece of a text. -/
structure Piece where
  /-- What the piece is. -/
  scope : Scope
  /-- The characters of the piece. -/
  text : List Char
  deriving DecidableEq, Repr

/-- A piece whose scope may have to be found by another table. -/
abbrev PaintedText : Type := Paint × List Char

namespace HighlightRule

/-- The painted texts of segments that match one behind the other from a place on, and the place
behind them. -/
def matchSegments : List (Pattern × Option Paint) → Place → Option (List PaintedText × Place)
  | [], place => some ([], place)
  | (pattern, paint) :: others, place =>
    pattern.run place fun later =>
      (matchSegments others later).map fun (painted, final) =>
        ((paint.map fun shown => (shown, place.between later)).toList ++ painted, final)

/-- The texts of a rule that matches at a place, and the place behind them. -/
def match? (rule : HighlightRule) (place : Place) : Option (List PaintedText × Place) :=
  matchSegments rule.segments place

end HighlightRule

/-- The open states behind a change, the innermost first. -/
def StateChange.apply (states : List HighlightState) : StateChange → List HighlightState
  | .stay => states
  | .enter state => state :: states
  | .leave =>
    match states with
    | _ :: outer :: others => outer :: others
    | only => only

/-- A match of a rule that consumes something at a place. -/
structure RuleMatch (place : Place) where
  /-- The texts of the segments. -/
  texts : List PaintedText
  /-- The place behind the match. -/
  later : Place
  /-- What the rule does to the open states. -/
  change : StateChange
  /-- The match consumes something. -/
  shorter : later.rest.length < place.rest.length

namespace Highlighter

/-- The match of the first rule that consumes something at a place. -/
def firstMatch? (place : Place) : List HighlightRule → Option (RuleMatch place)
  | [] => none
  | rule :: others =>
    match rule.match? place with
    | some (texts, later) =>
      if shorter : later.rest.length < place.rest.length then
        some ⟨texts, later, rule.change, shorter⟩
      else firstMatch? place others
    | none => firstMatch? place others

/-- The piece of a character that no rule matches. -/
def unmatched (char : Char) : PaintedText :=
  (.scope (if char = '\n' then .whitespace else .error), [char])

/-- The painted texts from a place on. -/
def painted (highlighter : Highlighter) (states : List HighlightState) (place : Place) :
    List PaintedText :=
  match firstMatch? place (highlighter.rules (states.headD .root)) with
  | some found => found.texts ++ highlighter.painted (found.change.apply states) found.later
  | none =>
    match _text : place.rest with
    | [] => []
    | char :: rest =>
      unmatched char ::
        highlighter.painted (if char = '\n' then [.root] else states) (Place.step char rest)
termination_by place.rest.length
decreasing_by
  · exact found.shorter
  · simp [Place.step, _text]

/-- The painted texts of a whole text, without those that are empty. -/
def paintedTexts (highlighter : Highlighter) (text : List Char) : List PaintedText :=
  (highlighter.painted [.root] (Place.start text)).filter fun (_, chars) => !chars.isEmpty

/-- The pieces of statements. -/
def statementPieces (text : List Char) : List Piece :=
  (pseudoCode.paintedTexts text).map fun (paint, chars) =>
    match paint with
    | .scope scope => ⟨scope, chars⟩
    | .statements => ⟨.text, chars⟩

/-- The pieces of a text, statements cut by their own table. -/
def pieces (highlighter : Highlighter) (text : List Char) : List Piece :=
  (highlighter.paintedTexts text).flatMap fun (paint, chars) =>
    match paint with
    | .scope scope => [⟨scope, chars⟩]
    | .statements => statementPieces chars

end Highlighter

/-! ## The text that is cut -/

/-- The text without a byte order mark at its start. -/
def dropByteOrderMark : List Char → List Char
  | [] => []
  | first :: rest => if first = Char.ofNat 0xfeff then rest else first :: rest

/-- The text that a highlighter cuts: without a byte order mark, with line feeds as the only line
ends, with none at the start and one at the end. -/
def highlightInput (text : String) : List Char :=
  trimWhile (· = '\n') (normalizeBreaks (dropByteOrderMark text.toList)) ++ ['\n']

/-! ## Tables by grammar -/

/-- The table for a grammar, if there is one. -/
def Highlighter.find? (grammar : String) : Option Highlighter :=
  if grammar = "specs" then some .specs
  else if grammar = "pseudo-kernel" then some .pseudoKernel
  else none

/-- The message about a grammar without a table. -/
def Highlighter.missingMessage (grammar : String) : String :=
  "no highlighter for grammar " ++ quoted grammar

end DocGrammar
