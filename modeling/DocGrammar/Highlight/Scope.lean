/-! # Scopes of highlighted text

Each piece of a highlighted text has a scope, which says what the piece is. Scopes form a tree by
their names, and a terminal shows a scope in the colour of its nearest ancestor that has one. -/

namespace DocGrammar

/-- What a piece of text is. -/
inductive Scope where
  /-- Text without a meaning of its own. -/
  | text
  /-- A line feed where nothing else matches. -/
  | whitespace
  /-- A character where nothing else matches. -/
  | error
  /-- A comment up to the end of its line. -/
  | lineComment
  /-- The fixed parts of a directive. -/
  | directive
  /-- A keyword. -/
  | keyword
  /-- A truth value. -/
  | constantKeyword
  /-- A keyword that declares something. -/
  | declaration
  /-- A keyword that names a section. -/
  | namespaceKeyword
  /-- A primitive type. -/
  | typeKeyword
  /-- A name. -/
  | name
  /-- A system verb. -/
  | builtin
  /-- A name that starts with a capital letter. -/
  | className
  /-- A link target. -/
  | entity
  /-- The name of a function that is defined. -/
  | function
  /-- A word with a colon that marks what follows. -/
  | label
  /-- The name of a grammar. -/
  | grammarName
  /-- A number. -/
  | number
  /-- A number with a fraction. -/
  | float
  /-- A number without a fraction. -/
  | integer
  /-- A string. -/
  | string
  /-- A fenced block. -/
  | fencedText
  /-- An escape in a string. -/
  | escape
  /-- A pattern between slashes. -/
  | pattern
  /-- An operator. -/
  | operator
  /-- A punctuation mark. -/
  | punctuation
  /-- A heading. -/
  | heading
  /-- The marker of a section heading. -/
  | subheading
  deriving DecidableEq, Repr

namespace Scope

/-- The name of a scope. -/
def displayName : Scope → String
  | text => "Token.Text"
  | whitespace => "Token.Text.Whitespace"
  | error => "Token.Error"
  | lineComment => "Token.Comment.Single"
  | directive => "Token.Comment.Hashbang"
  | keyword => "Token.Keyword"
  | constantKeyword => "Token.Keyword.Constant"
  | declaration => "Token.Keyword.Declaration"
  | namespaceKeyword => "Token.Keyword.Namespace"
  | typeKeyword => "Token.Keyword.Type"
  | name => "Token.Name"
  | builtin => "Token.Name.Builtin"
  | className => "Token.Name.Class"
  | entity => "Token.Name.Entity"
  | function => "Token.Name.Function"
  | label => "Token.Name.Label"
  | grammarName => "Token.Name.Namespace"
  | number => "Token.Literal.Number"
  | float => "Token.Literal.Number.Float"
  | integer => "Token.Literal.Number.Integer"
  | string => "Token.Literal.String"
  | fencedText => "Token.Literal.String.Doc"
  | escape => "Token.Literal.String.Escape"
  | pattern => "Token.Literal.String.Regex"
  | operator => "Token.Operator"
  | punctuation => "Token.Punctuation"
  | heading => "Token.Generic.Heading"
  | subheading => "Token.Generic.Subheading"

/-- The terminal codes of a scope, empty if it is shown without colour. -/
def codes : Scope → String
  | whitespace | lineComment | directive => "\x1b[37m"
  | keyword | constantKeyword | declaration | namespaceKeyword => "\x1b[34m"
  | number | float | integer => "\x1b[34m"
  | typeKeyword | builtin => "\x1b[36m"
  | function => "\x1b[32m"
  | grammarName => "\x1b[04m\x1b[36m"
  | className => "\x1b[04m\x1b[32m"
  | string | fencedText | escape | pattern => "\x1b[33m"
  | heading => "\x1b[01m"
  | subheading => "\x1b[01m\x1b[35m"
  | error => "\x1b[04m\x1b[91m"
  | text | name | entity | label | operator | punctuation => ""

end Scope

end DocGrammar
