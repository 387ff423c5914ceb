import DocGrammar.Token.Kind

/-! # Operators and punctuation

The operators of code, of two characters and of one. A pair of characters that forms an operator
is read as that operator, whatever its characters mean alone. -/

namespace DocGrammar

/-- The operator of two characters that `first` and `second` form. -/
def pairOperator? (first second : Char) : Option TokenKind :=
  match first, second with
  | '-', '>' => some .arrow
  | '|', '>' => some .pipeArrow
  | '=', '=' => some .equal
  | '!', '=' => some .notEqual
  | '<', '=' => some .lessEqual
  | '>', '=' => some .greaterEqual
  | '&', '&' => some .and
  | '|', '|' => some .or
  | '.', '.' => some .dotDot
  | ':', ':' => some .doubleColon
  | _, _ => none

/-- The operator or punctuation mark that a single character forms. -/
def singleOperator? (char : Char) : Option TokenKind :=
  match char with
  | '→' => some .resultArrow
  | '⟺' => some .iff
  | '<' => some .less
  | '>' => some .greater
  | '!' => some .bang
  | '=' => some .assign
  | '+' => some .plus
  | '-' => some .minus
  | '*' => some .star
  | '/' => some .slash
  | '%' => some .percent
  | '.' => some .dot
  | '(' => some .leftParen
  | ')' => some .rightParen
  | '[' => some .leftBracket
  | ']' => some .rightBracket
  | '\x7b' => some .leftBrace
  | '\x7d' => some .rightBrace
  | ',' => some .comma
  | ':' => some .colon
  | ';' => some .semicolon
  | '|' => some .pipe
  | _ => none

end DocGrammar
