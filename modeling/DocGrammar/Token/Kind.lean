/-! # Token kinds

Documents are read at two levels. At the document level a token is a piece of a markdown line: a
heading marker, a fence, a link. At the code level a token is a word, a literal or an operator of
a section body or of fenced code. -/

namespace DocGrammar

/-- The kind of a token. -/
inductive TokenKind where
  /-- The directive line that names the grammar. -/
  | shebang
  /-- The hash signs of a heading. -/
  | headingMarker
  /-- A heading title, a link target or a link description. -/
  | text
  /-- The backticks that open or close a fenced block. -/
  | fenceMarker
  /-- A line inside a fenced block. -/
  | codeLine
  /-- The hyphen of a link item. -/
  | listBullet
  /-- The bracket that opens a link target. -/
  | linkOpen
  /-- The bracket that closes a link target. -/
  | linkClose
  /-- Any other line of a document. -/
  | line
  /-- The keyword that opens a function definition. -/
  | fnWord
  /-- The keyword that opens a binding. -/
  | letWord
  /-- The keyword that opens a conditional. -/
  | ifWord
  /-- The keyword of the other branch of a conditional. -/
  | elseWord
  /-- The keyword that opens a return statement. -/
  | returnWord
  /-- The keyword between subject and parameters of an intent. -/
  | withWord
  /-- The keyword between parameters and return type of an intent. -/
  | returningWord
  /-- The keyword of a range constraint. -/
  | inWord
  /-- The keyword of a format constraint. -/
  | matchesWord
  /-- A number literal. -/
  | numberLit
  /-- A string literal. -/
  | stringLit
  /-- A truth value. -/
  | booleanLit
  /-- A pattern between slashes. -/
  | patternLit
  /-- The arrow of a return type. -/
  | arrow
  /-- The arrow between a call and its result. -/
  | resultArrow
  /-- The equivalence of an invariant. -/
  | iff
  /-- The pipe operator. -/
  | pipeArrow
  /-- The equality operator. -/
  | equal
  /-- The inequality operator. -/
  | notEqual
  /-- The less-than sign, which also opens type arguments. -/
  | less
  /-- The greater-than sign, which also closes type arguments. -/
  | greater
  /-- The less-or-equal operator. -/
  | lessEqual
  /-- The greater-or-equal operator. -/
  | greaterEqual
  /-- The conjunction operator. -/
  | and
  /-- The disjunction operator. -/
  | or
  /-- The negation operator. -/
  | bang
  /-- The assignment sign. -/
  | assign
  /-- The plus sign. -/
  | plus
  /-- The minus sign. -/
  | minus
  /-- The multiplication sign. -/
  | star
  /-- The division sign. -/
  | slash
  /-- The remainder sign. -/
  | percent
  /-- The dot of a property access. -/
  | dot
  /-- The range operator. -/
  | dotDot
  /-- The scope operator. -/
  | doubleColon
  /-- An opening parenthesis. -/
  | leftParen
  /-- A closing parenthesis. -/
  | rightParen
  /-- An opening bracket. -/
  | leftBracket
  /-- A closing bracket. -/
  | rightBracket
  /-- An opening brace. -/
  | leftBrace
  /-- A closing brace. -/
  | rightBrace
  /-- A comma. -/
  | comma
  /-- A colon. -/
  | colon
  /-- A semicolon. -/
  | semicolon
  /-- The bar of a union type or of a list of error names. -/
  | pipe
  /-- A comment. -/
  | comment
  /-- A word that is no keyword. -/
  | identifier
  /-- The end of a line. -/
  | newline
  /-- The end of the text. -/
  | endOfInput
  deriving DecidableEq, Repr, Inhabited

namespace TokenKind

/-- The name of a kind in token listings and in messages. -/
def name : TokenKind → String
  | shebang => "SHEBANG"
  | headingMarker => "HEADING_MARKER"
  | text => "TEXT"
  | fenceMarker => "FENCE_MARKER"
  | codeLine => "CODE_LINE"
  | listBullet => "LIST_BULLET"
  | linkOpen => "LINK_OPEN"
  | linkClose => "LINK_CLOSE"
  | line => "LINE"
  | fnWord => "FN"
  | letWord => "LET"
  | ifWord => "IF"
  | elseWord => "ELSE"
  | returnWord => "RETURN"
  | withWord => "WITH"
  | returningWord => "RETURNING"
  | inWord => "IN"
  | matchesWord => "MATCHES"
  | numberLit => "NUMBER_LIT"
  | stringLit => "STRING_LIT"
  | booleanLit => "BOOLEAN_LIT"
  | patternLit => "PATTERN_LIT"
  | arrow => "ARROW"
  | resultArrow => "RESULT_ARROW"
  | iff => "IFF"
  | pipeArrow => "PIPE_ARROW"
  | equal => "EQUAL"
  | notEqual => "NOT_EQUAL"
  | less => "LESS"
  | greater => "GREATER"
  | lessEqual => "LESS_EQUAL"
  | greaterEqual => "GREATER_EQUAL"
  | and => "AND"
  | or => "OR"
  | bang => "BANG"
  | assign => "ASSIGN"
  | plus => "PLUS"
  | minus => "MINUS"
  | star => "STAR"
  | slash => "SLASH"
  | percent => "PERCENT"
  | dot => "DOT"
  | dotDot => "DOT_DOT"
  | doubleColon => "DOUBLE_COLON"
  | leftParen => "LPAREN"
  | rightParen => "RPAREN"
  | leftBracket => "LBRACKET"
  | rightBracket => "RBRACKET"
  | leftBrace => "LBRACE"
  | rightBrace => "RBRACE"
  | comma => "COMMA"
  | colon => "COLON"
  | semicolon => "SEMICOLON"
  | pipe => "PIPE"
  | comment => "COMMENT"
  | identifier => "IDENTIFIER"
  | newline => "NEWLINE"
  | endOfInput => "EOF"

/-- Every token kind, in the order of declaration. -/
def all : List TokenKind :=
  [shebang, headingMarker, text, fenceMarker, codeLine, listBullet, linkOpen, linkClose, line,
    fnWord, letWord, ifWord, elseWord, returnWord, withWord, returningWord, inWord, matchesWord,
    numberLit, stringLit, booleanLit, patternLit, arrow, resultArrow, iff, pipeArrow, equal,
    notEqual, less, greater, lessEqual, greaterEqual, and, or, bang, assign, plus, minus, star,
    slash, percent, dot, dotDot, doubleColon, leftParen, rightParen, leftBracket, rightBracket,
    leftBrace, rightBrace, comma, colon, semicolon, pipe, comment, identifier, newline, endOfInput]

/-- The kind of a given name. -/
def ofName? (wanted : String) : Option TokenKind :=
  all.find? fun kind => kind.name == wanted

/-- Whether a token of this kind ends a value, so that a slash behind it divides. -/
def endsValue : TokenKind → Bool
  | identifier | numberLit | stringLit | booleanLit | patternLit | rightParen | rightBracket
  | rightBrace => true
  | _ => false

/-- Whether a line end behind a token of this kind continues the line. -/
def continuesLine : TokenKind → Bool
  | comma | plus | minus | star | slash | percent | equal | notEqual | lessEqual | greaterEqual
  | and | or | pipeArrow | arrow | resultArrow | iff | pipe | leftParen | leftBracket | assign
  | dot | dotDot | doubleColon => true
  | _ => false

end TokenKind

end DocGrammar
