import DocGrammar.Diagnostic.Basic
import DocGrammar.Token.Lexeme

/-! # Code tokens

The second level of reading: section bodies and fenced code become a sequence of tokens. Spaces
separate lexemes. A line feed becomes a token unless the line visibly goes on: inside parentheses
or brackets, behind an operator that wants an operand, or where the line is empty.

* **`CodeState`** — where reading stands: the position, the open brackets, the token before.
* **`codeTokens`** — the tokens of a stretch of code, ended by the end-of-input token. -/

namespace DocGrammar

/-! ## The state between two tokens -/

/-- Where reading stands between two tokens. -/
structure CodeState where
  /-- The position of the next character. -/
  position : Position
  /-- The number of parentheses and brackets that are open. -/
  openBrackets : Nat
  /-- The kind of the last token other than a comment. -/
  previous : Option TokenKind
  deriving DecidableEq, Repr

namespace CodeState

/-- The state before the first character. -/
def start (position : Position) : CodeState := ⟨position, 0, none⟩

/-- Whether a value stands before the next character. -/
def isBehindValue (state : CodeState) : Bool :=
  (state.previous.map TokenKind.endsValue).getD false

/-- Whether a line feed becomes a token. -/
def endsLine (state : CodeState) : Bool :=
  state.openBrackets = 0 &&
    match state.previous with
    | none => false
    | some kind => !kind.continuesLine && kind ≠ .newline

/-- The number of open brackets behind a token. -/
def bracketsBehind (state : CodeState) : TokenKind → Nat
  | .leftParen | .leftBracket => state.openBrackets + 1
  | .rightParen | .rightBracket => state.openBrackets - 1
  | _ => state.openBrackets

/-- The state behind characters that form no token. -/
def skip (state : CodeState) (chars : List Char) : CodeState :=
  { state with position := state.position.after chars }

/-- The state behind a token of the given characters. -/
def behind (state : CodeState) (kind : TokenKind) (chars : List Char) : CodeState :=
  ⟨state.position.after chars, state.bracketsBehind kind,
    if kind = .comment then state.previous else some kind⟩

end CodeState

/-! ## Tokens -/

/-- The last position of a token that the position `behind` follows. -/
def Position.before (behind : Position) : Position :=
  ⟨behind.line, if 1 < behind.column then behind.column - 1 else 1⟩

/-- The token that the given characters form at a position. -/
def codeToken (file : String) (start : Position) (kind : TokenKind) (value chars : List Char) :
    Token :=
  ⟨kind, String.ofList value, ⟨file, start, (start.after chars).before⟩⟩

/-- Whether a character separates lexemes without ending a line. -/
def isCodeSpace (char : Char) : Bool :=
  char = ' ' || char = '\t' || char = '\r'

/-- The tokens of the characters that follow a state. -/
def codeTokensFrom (keywords : KeywordTable) (file : String) (state : CodeState) :
    List Char → Except Diagnostic (List Token)
  | [] => .ok [codeToken file state.position .endOfInput [] []]
  | char :: rest =>
    if isCodeSpace char then codeTokensFrom keywords file (state.skip [char]) rest
    else if char = '\n' then
      if state.endsLine then do
        let others ← codeTokensFrom keywords file (state.behind .newline [char]) rest
        return codeToken file state.position .newline [char] [char] :: others
      else codeTokensFrom keywords file (state.skip [char]) rest
    else
      match Lexeme.scan keywords state.isBehindValue char rest with
      | .error fault =>
        .error ⟨fault.cause, Span.point file (fault.place state.position (char :: rest))⟩
      | .ok lexeme => do
        let chars := char :: rest.take lexeme.extra
        let others ←
          codeTokensFrom keywords file (state.behind lexeme.kind chars) (rest.drop lexeme.extra)
        return codeToken file state.position lexeme.kind lexeme.value chars :: others
termination_by chars => chars.length
decreasing_by all_goals simp only [List.length_drop, List.length_cons]; omega

/-- The tokens of a stretch of code that starts at the given position. -/
def codeTokens (keywords : KeywordTable) (file : String) (start : Position) (text : String) :
    Except Diagnostic (List Token) :=
  codeTokensFrom keywords file (CodeState.start start) text.toList

end DocGrammar
