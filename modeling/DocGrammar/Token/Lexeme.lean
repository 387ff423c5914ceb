import DocGrammar.Diagnostic.Cause
import DocGrammar.Text.Trim
import DocGrammar.Text.Word
import DocGrammar.Token.Keyword
import DocGrammar.Token.Operator

/-! # Lexemes of code

Code is read lexeme by lexeme. What a lexeme is depends only on the characters that follow, the
reserved words, and on whether a value stands before it: behind a value a slash divides, elsewhere
it opens a pattern.

* **`Lexeme.scan`** — the lexeme that a stretch of code starts with.
* **`LexFault`** — why no lexeme can be read there, and where the fault lies. -/

namespace DocGrammar

/-! ## Lexemes and faults -/

/-- A lexeme: its kind, its value, and how many characters follow its first one. -/
structure Lexeme where
  /-- The kind of the lexeme. -/
  kind : TokenKind
  /-- The value of the token that the lexeme becomes. -/
  value : List Char
  /-- The number of characters behind the first one. -/
  extra : Nat
  deriving DecidableEq, Repr

/-- A fault in a lexeme. The fault lies `back` columns before the place behind the first `reach`
characters of the lexeme. -/
structure LexFault where
  /-- What is wrong. -/
  cause : Cause
  /-- The number of characters before the place of the fault. -/
  reach : Nat
  /-- The number of columns to go back from there. -/
  back : Nat
  deriving DecidableEq, Repr

namespace LexFault

/-- A fault at the start of the lexeme. -/
def atStart (cause : Cause) : LexFault := ⟨cause, 0, 0⟩

/-- The place of a fault in a lexeme of the given characters. -/
def place (fault : LexFault) (start : Position) (chars : List Char) : Position :=
  let behind := start.after (chars.take fault.reach)
  ⟨behind.line, behind.column - fault.back⟩

end LexFault

namespace Lexeme

/-! ## Strings -/

/-- The character that an escape in a string stands for. -/
def escape? (char : Char) : Option Char :=
  match char with
  | 'n' => some '\n'
  | 'r' => some '\r'
  | 't' => some '\t'
  | '\\' => some '\\'
  | '"' => some '"'
  | '\'' => some '\''
  | '0' => some (Char.ofNat 0)
  | _ => none

/-- The content of a string behind its opening mark, of which `taken` characters of the lexeme are
read already, and the number of characters up to and including the closing mark. -/
def stringBody (mark : Char) : Nat → List Char → Except LexFault (List Char × Nat)
  | _, [] => .error (.atStart .unterminatedString)
  | taken, '\\' :: rest =>
    match rest with
    | [] => .error ⟨.unfinishedEscape, taken + 1, 0⟩
    | letter :: others =>
      match escape? letter with
      | none => .error ⟨.unknownEscape letter, taken + 2, 2⟩
      | some char => do
        let (content, width) ← stringBody mark (taken + 2) others
        return (char :: content, width)
  | taken, char :: rest =>
    if char = mark then .ok ([], taken + 1)
    else if char = '\n' then .error (.atStart .unterminatedString)
    else do
      let (content, width) ← stringBody mark (taken + 1) rest
      return (char :: content, width)

/-- The lexeme of a string behind its opening mark. -/
def string (mark : Char) (rest : List Char) : Except LexFault Lexeme := do
  let (content, width) ← stringBody mark 1 rest
  return ⟨.stringLit, content, width - 1⟩

/-- The content of a string between triple quotes, from behind the opening quotes. -/
def tripleContent? : List Char → Option (List Char)
  | [] => none
  | '"' :: '"' :: '"' :: _ => some []
  | char :: rest => (tripleContent? rest).map (char :: ·)

/-- The lexeme of a string between triple quotes, from behind the opening quotes. -/
def tripleString (rest : List Char) : Except LexFault Lexeme :=
  match tripleContent? rest with
  | none => .error (.atStart .unterminatedTripleString)
  | some content => .ok ⟨.stringLit, content, content.length + 5⟩

/-! ## Patterns and comments -/

/-- The content of a pattern, from behind its opening slash. A backslash keeps the character
behind it from closing the pattern. -/
def patternContent? : List Char → Option (List Char)
  | [] => none
  | '/' :: _ => some []
  | '\n' :: _ => none
  | '\\' :: char :: rest =>
    if char = '\n' then none else (patternContent? rest).map ('\\' :: char :: ·)
  | char :: rest => (patternContent? rest).map (char :: ·)

/-- The lexeme of a pattern, from behind its opening slash. -/
def pattern (rest : List Char) : Except LexFault Lexeme :=
  match patternContent? rest with
  | none => .error (.atStart .unterminatedPattern)
  | some content => .ok ⟨.patternLit, content, content.length + 1⟩

/-- The lexeme of a comment, from behind its two slashes: the rest of the line. -/
def comment (rest : List Char) : Lexeme :=
  let content := rest.takeWhile (· ≠ '\n')
  ⟨.comment, trim content, content.length + 1⟩

/-! ## Numbers, words and operators -/

/-- The characters of a number: digits, and a fraction if a point and a digit follow. -/
def numberText (chars : List Char) : List Char :=
  let whole := chars.takeWhile isDigit
  match chars.drop whole.length with
  | '.' :: rest =>
    let fraction := rest.takeWhile isDigit
    if fraction.isEmpty then whole else whole ++ '.' :: fraction
  | _ => whole

/-- The lexeme of a number. -/
def number (chars : List Char) : Lexeme :=
  let content := numberText chars
  ⟨.numberLit, content, content.length - 1⟩

/-- The lexeme of a word: a reserved word or an identifier. -/
def word (keywords : KeywordTable) (chars : List Char) : Lexeme :=
  let content := chars.takeWhile isWordChar
  ⟨keywords.kindOf (String.ofList content), content, content.length - 1⟩

/-- The lexeme of an operator or punctuation mark. -/
def operator (char : Char) (rest : List Char) : Except LexFault Lexeme :=
  match rest.head?.bind (pairOperator? char) with
  | some kind => .ok ⟨kind, char :: rest.take 1, 1⟩
  | none =>
    match singleOperator? char with
    | some kind => .ok ⟨kind, [char], 0⟩
    | none => .error (.atStart (.unexpectedCharacter char))

/-! ## Any lexeme -/

/-- The lexeme that starts with `char`, which is neither a line feed nor a space, before `rest`.
The flag tells whether a value stands before it. -/
def scan (keywords : KeywordTable) (behindValue : Bool) (char : Char) (rest : List Char) :
    Except LexFault Lexeme :=
  match char, rest with
  | '/', '/' :: others => .ok (comment others)
  | '"', '"' :: '"' :: others => tripleString others
  | _, _ =>
    if char = '"' || char = '\'' then string char rest
    else if char = '/' && !behindValue then pattern rest
    else if isDigit char then .ok (number (char :: rest))
    else if isWordStart char then .ok (word keywords (char :: rest))
    else operator char rest

end Lexeme

end DocGrammar
