import DocGrammar.Source.Span
import DocGrammar.Text.Quoted
import DocGrammar.Token.Kind

/-! # Tokens

A token is a kind, the text that it carries and its span. -/

namespace DocGrammar

/-- A token of a document or of code. -/
structure Token where
  /-- The kind of the token. -/
  kind : TokenKind
  /-- The text of the token: the source text, or the content of a string, pattern or comment. -/
  value : String
  /-- Where the token stands. -/
  span : Span
  deriving DecidableEq, Repr, Inhabited

/-- How messages describe a token of a given kind and value. -/
def TokenKind.describe (kind : TokenKind) (value : String) : String :=
  match kind with
  | .newline => "end of line"
  | .endOfInput => "end of input"
  | .stringLit => "string " ++ quoted value
  | _ => quoted value

namespace Token

/-- How messages describe a token. -/
def describe (token : Token) : String := token.kind.describe token.value

/-- The line on which a token starts. -/
def line (token : Token) : Int := token.span.start.line

/-- The column at which a token starts. -/
def column (token : Token) : Int := token.span.start.column

end Token

end DocGrammar
