import DocGrammar.Document.GrammarName
import DocGrammar.Highlight.Pattern
import DocGrammar.Highlight.Scope
import DocGrammar.Pseudo.Expression
import DocGrammar.Specs.Body

/-! # Rules of the highlighter

The highlighter reads a text by a table of rules. A rule is a list of segments; it matches where
its segments match one behind the other, and each painted segment gives its text a scope of its own.
What an unpainted segment matches is not shown, so such segments only look at a place. The rules of
a state are tried in order, and the first that matches counts.

* **`Highlighter.pseudoCode`** — the table of statements.
* **`Highlighter.specs`** — the table of specs documents.
* **`Highlighter.pseudoKernel`** — the table of pseudo-kernel documents. -/

namespace DocGrammar

/-! ## Tables -/

/-- How the text of a segment is shown. -/
inductive Paint where
  /-- In a scope. -/
  | scope (scope : Scope)
  /-- Piece by piece, as statements of pseudo code. -/
  | statements
  deriving DecidableEq, Repr

/-- A state of the highlighter. -/
inductive HighlightState where
  /-- Outside strings. -/
  | root
  /-- Inside a string between double quotes. -/
  | doubleQuoted
  /-- Inside a string between apostrophes. -/
  | singleQuoted
  deriving DecidableEq, Repr

/-- What a match does to the open states. -/
inductive StateChange where
  /-- Nothing. -/
  | stay
  /-- Opens a state. -/
  | enter (state : HighlightState)
  /-- Closes the innermost state, unless it is the only one. -/
  | leave
  deriving DecidableEq, Repr

/-- A rule of the highlighter. -/
structure HighlightRule where
  /-- The segments, which have to match one behind the other. The text of a segment without paint is
  not shown. -/
  segments : List (Pattern × Option Paint)
  /-- What a match does to the open states. -/
  change : StateChange

namespace HighlightRule

/-- The rule of a pattern with a single scope. -/
def plain (pattern : Pattern) (scope : Scope) : HighlightRule :=
  ⟨[(pattern, some (.scope scope))], .stay⟩

/-- The rule of a mark that changes the open states. -/
def mark (pattern : Pattern) (change : StateChange) : HighlightRule :=
  ⟨[(pattern, some (.scope .string))], change⟩

/-- The rule of patterns with a scope each, between two patterns that are not shown. -/
def parts (before : Pattern) (segments : List (Pattern × Scope)) (behind : Pattern) :
    HighlightRule :=
  ⟨(before, none) :: segments.map (fun (pattern, scope) => (pattern, some (.scope scope))) ++
    [(behind, none)], .stay⟩

end HighlightRule

/-- A table of rules. -/
structure Highlighter where
  /-- The rules of each state, in the order in which they are tried. -/
  rules : HighlightState → List HighlightRule

namespace Highlighter

open Pattern HighlightRule

/-! ## Shared rules -/

/-- White space. -/
def blankRule : HighlightRule := plain (oneOrMore blank) .text

/-- A comment behind two slashes. -/
def slashComment : HighlightRule := plain (both (literal "//") restOfLine) .lineComment

/-- The truth values. -/
def truthValues : HighlightRule := plain (words "true" ["false"]) .constantKeyword

/-- The primitive types. -/
def primitiveTypes : HighlightRule :=
  plain (words "any" ["boolean", "number", "string"]) .typeKeyword

/-- A name that starts with a capital letter. -/
def classNames : HighlightRule :=
  plain (both capital (many (char fun next => isAsciiLetter next || isAsciiDigit next))) .className

/-- A name. -/
def names : HighlightRule := plain (both nameStart (many wordChar)) .name

/-- The directive line. -/
def directiveRule : HighlightRule :=
  parts textStart
    [(text directiveOpening, .directive),
      (both (char isGrammarNameStart) (many (char isGrammarNameChar)), .grammarName),
      (text directiveClosing, .directive)] lineEnd

/-- A heading line of any level. -/
def headings : HighlightRule :=
  plain (sequence [lineStart, upTo (literal "#") 5, blank, restOfLine]) .heading

/-- A line behind a hash sign that is no heading. -/
def hashComment : HighlightRule :=
  plain (sequence [lineStart, literal "#", restOfLine]) .lineComment

/-- Three backticks. -/
def fenceMark : Pattern := literal "\x60\x60\x60"

/-- The line that closes a fenced block. -/
def fenceEnd : Pattern := sequence [lineStart, fenceMark, many blank, lineEnd]

/-! ## Statements -/

/-- The rules of statements outside strings. -/
def statementRules : List HighlightRule :=
  [blankRule,
    slashComment,
    plain (sequence [literal "\"\"\"", few anything, literal "\"\"\""]) .string,
    mark (literal "\"") (.enter .doubleQuoted),
    mark (literal "'") (.enter .singleQuoted),
    plain (sequence [oneOrMore digit, literal ".", oneOrMore digit]) .float,
    plain (oneOrMore digit) .integer,
    parts wordBoundary
      [(literal "fn", .declaration), (oneOrMore blank, .text),
        (both nameStart (many wordChar), .function)] empty,
    plain (words "let" ["if", "else", "return"]) .keyword,
    truthValues,
    plain (words "execute" ["load_algorithm", "load_specs", "spawn_subagent"]) .builtin,
    primitiveTypes,
    plain (oneOf "|>" ["->", "==", "!=", "<=", ">=", "&&", "||", "..", "::"]) .operator,
    plain (anyOf "+-*/%<>!=|.") .operator,
    classNames,
    names,
    plain (anyOf "\x7b\x7d()[],:;") .punctuation]

/-- The rules inside a string between the given quotes. -/
def stringRules (quote : String) : List HighlightRule :=
  [plain (both (literal "\\") inLine) .escape,
    plain (oneOrMore (noneOf (quote ++ "\\\n"))) .string,
    mark (literal quote) .leave]

/-- The table of statements. -/
def pseudoCode : Highlighter where
  rules
    | .root => statementRules
    | .doubleQuoted => stringRules "\""
    | .singleQuoted => stringRules "'"

/-! ## Specs documents -/

/-- A string between the given marks, on one line. -/
def lineString (mark : String) : Pattern :=
  sequence [literal mark,
    many (choice (literal "\\\\") [literal ("\\" ++ mark), noneOf (mark ++ "\n")]), literal mark]

/-- The rules of specs documents. -/
def specsRules : List HighlightRule :=
  [directiveRule,
    parts lineStart
      [(literal "#", .heading), (oneOrMore blank, .text), (literal "Feature:", .declaration),
        (many inLine, .className)] lineEnd,
    parts lineStart
      [(literal "##", .subheading), (oneOrMore blank, .text),
        (oneOf "Intent" ["Inputs", "Outputs", "Examples", "Constraints", "Invariants"],
          .namespaceKeyword),
        (many blank, .text)] lineEnd,
    headings,
    hashComment,
    plain (sequence [lineStart, fenceMark, many inLine, literal "\n", few anything, fenceEnd])
      .fencedText,
    blankRule,
    slashComment,
    parts wordBoundary
      [(oneOf "SUCCESS" ["FAILURE", "Error"], .label), (literal ":", .punctuation)] empty,
    plain
      (sequence [wordBoundary, capital,
        many (char fun next => ('A' ≤ next && next ≤ 'Z') || next = '_'), wordBoundary,
        ahead (sequence [oneOrMore blank, oneOrMore wordChar, oneOrMore blank, literal "WITH",
          wordBoundary])])
      .declaration,
    plain (words "WITH" ["RETURNING", "IN", "MATCHES"]) .keyword,
    truthValues,
    primitiveTypes,
    plain (lineString "\"") .string,
    plain (lineString "'") .string,
    plain
      (sequence [literal "/", char fun next => !isBlank next && next ≠ '/',
        many (either (noneOf "/\n\\") (both (literal "\\") inLine)), literal "/"])
      .pattern,
    plain
      (sequence [maybe (literal "-"), oneOrMore digit,
        maybe (both (literal ".") (oneOrMore digit))])
      .number,
    plain
      (either (oneOf "→" ["⟺", ">=", "<=", "==", "!=", ".."]) (anyOf "<>=|"))
      .operator,
    classNames,
    names,
    plain (anyOf "\x7b\x7d()[],:.") .punctuation]

/-- The table of specs documents. -/
def specs : Highlighter where
  rules _ := specsRules

/-! ## Pseudo-kernel documents -/

/-- The rules of pseudo-kernel documents. -/
def pseudoKernelRules : List HighlightRule :=
  [directiveRule,
    ⟨[(lineStart, none),
        (sequence [fenceMark, literal "pseudo", many inLine, literal "\n"],
          some (.scope .fencedText)),
        (few anything, some .statements), (fenceEnd, some (.scope .fencedText))], .stay⟩,
    plain (sequence [lineStart, fenceMark, few anything, fenceEnd]) .fencedText,
    headings,
    hashComment,
    parts lineStart
      [(sequence [many blank, literal "-", oneOrMore blank], .punctuation),
        (literal "[", .punctuation), (oneOrMore (noneOf "]"), .entity),
        (literal "]", .punctuation), (many inLine, .text)] lineEnd,
    plain (oneOrMore inLine) .text,
    plain (literal "\n") .text]

/-- The table of pseudo-kernel documents. -/
def pseudoKernel : Highlighter where
  rules _ := pseudoKernelRules

end Highlighter

end DocGrammar
