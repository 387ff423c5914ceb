import DocGrammar.Token.Kind

/-! # Keyword tables

A grammar reserves some words. The table of a grammar maps its reserved words to their kinds;
every other word is an identifier. -/

namespace DocGrammar

/-- The reserved words of a grammar with their kinds. -/
abbrev KeywordTable : Type := List (String × TokenKind)

namespace KeywordTable

/-- The table that reserves no word. -/
def none : KeywordTable := []

/-- The reserved words of specs section bodies. -/
def specs : KeywordTable :=
  [("WITH", .withWord), ("RETURNING", .returningWord), ("IN", .inWord), ("MATCHES", .matchesWord),
    ("true", .booleanLit), ("false", .booleanLit)]

/-- The reserved words of pseudo code. -/
def pseudo : KeywordTable :=
  [("fn", .fnWord), ("let", .letWord), ("if", .ifWord), ("else", .elseWord),
    ("return", .returnWord), ("true", .booleanLit), ("false", .booleanLit)]

/-- The kind of a word: its reserved kind, or that of an identifier. -/
def kindOf (table : KeywordTable) (word : String) : TokenKind :=
  (table.lookup word).getD .identifier

end KeywordTable

end DocGrammar
