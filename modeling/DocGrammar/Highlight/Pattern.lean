import DocGrammar.Text.Blank
import DocGrammar.Text.Word

/-! # Text patterns

The highlighter finds its tokens by patterns. A pattern is tried at a place of a text; where it can
match in several ways, the ways are tried in order, and the first one that lets the whole rest
match counts. A repetition prefers as many rounds as possible, a lazy one as few.

* **`Pattern`** — patterns; **`Place`** — places of a text.
* **`Pattern.run`** — tries a pattern, and goes on with what has to match behind it. -/

namespace DocGrammar

/-! ## Places -/

/-- A place of a text: the character before it and the characters behind it. -/
structure Place where
  /-- The character before the place, unless it is the start of the text. -/
  previous : Option Char
  /-- The characters behind the place. -/
  rest : List Char
  deriving DecidableEq, Repr

namespace Place

/-- The start of a text. -/
def start (text : List Char) : Place := ⟨none, text⟩

/-- The place behind one more character. -/
def step (char : Char) (rest : List Char) : Place := ⟨some char, rest⟩

/-- The characters between a place and a later one. -/
def between (place later : Place) : List Char :=
  place.rest.take (place.rest.length - later.rest.length)

/-- Whether a line starts at a place. -/
def isLineStart (place : Place) : Bool :=
  place.previous.isNone || place.previous = some '\n'

/-- Whether a line ends at a place. -/
def isLineEnd (place : Place) : Bool :=
  place.rest.isEmpty || place.rest.head? = some '\n'

/-- Whether a word starts or ends at a place. -/
def isWordBoundary (place : Place) : Bool :=
  (place.previous.map isWordChar).getD false != (place.rest.head?.map isWordChar).getD false

end Place

/-! ## Patterns -/

/-- A pattern of text. -/
inductive Pattern where
  /-- A character of a class. -/
  | char (accepts : Char → Bool)
  /-- The given characters. -/
  | text (chars : List Char)
  /-- The start of the text, without consuming anything. -/
  | textStart
  /-- The start of a line. -/
  | lineStart
  /-- The end of a line. -/
  | lineEnd
  /-- The start or the end of a word. -/
  | wordBoundary
  /-- One pattern behind another. -/
  | both (first second : Pattern)
  /-- One pattern, or else another. -/
  | either (first second : Pattern)
  /-- Any number of rounds of a pattern, as many as possible. -/
  | many (round : Pattern)
  /-- Any number of rounds of a pattern, as few as possible. -/
  | few (round : Pattern)
  /-- A pattern that has to match next, without being consumed. -/
  | ahead (next : Pattern)

namespace Pattern

variable {α : Type}

/-! ## Matching -/

/-- What is left behind the given characters, and the place there. -/
def runText (chars : List Char) (place : Place) (continue? : Place → Option α) : Option α :=
  match chars with
  | [] => continue? place
  | wanted :: more =>
    match place.rest with
    | [] => none
    | next :: rest => if wanted = next then runText more (Place.step next rest) continue? else none

/-- At most `rounds` rounds, as many as possible. A round that consumes nothing is not repeated. -/
def runMany (once : Place → (Place → Option α) → Option α) :
    Nat → Place → (Place → Option α) → Option α
  | 0, place, continue? => continue? place
  | rounds + 1, place, continue? =>
    (once place fun later =>
      if later.rest.length < place.rest.length then runMany once rounds later continue? else none)
    <|> continue? place

/-- At most `rounds` rounds, as few as possible. A round that consumes nothing is not repeated. -/
def runFew (once : Place → (Place → Option α) → Option α) :
    Nat → Place → (Place → Option α) → Option α
  | 0, place, continue? => continue? place
  | rounds + 1, place, continue? =>
    continue? place <|>
      once place fun later =>
        if later.rest.length < place.rest.length then runFew once rounds later continue? else none

/-- The first result of `continue?` at a place behind the pattern. -/
def run : Pattern → Place → (Place → Option α) → Option α
  | char accepts, place, continue? =>
    match place.rest with
    | [] => none
    | next :: rest => if accepts next then continue? (Place.step next rest) else none
  | text chars, place, continue? => runText chars place continue?
  | textStart, place, continue? => if place.previous.isNone then continue? place else none
  | lineStart, place, continue? => if place.isLineStart then continue? place else none
  | lineEnd, place, continue? => if place.isLineEnd then continue? place else none
  | wordBoundary, place, continue? => if place.isWordBoundary then continue? place else none
  | both first second, place, continue? =>
    run first place fun later => run second later continue?
  | either first second, place, continue? =>
    run first place continue? <|> run second place continue?
  | many round, place, continue? => runMany (run round) place.rest.length place continue?
  | few round, place, continue? => runFew (run round) place.rest.length place continue?
  | ahead next, place, continue? =>
    run next place fun _ => continue? place

/-! ## Common patterns -/

/-- The given text. -/
def literal (chars : String) : Pattern := text chars.toList

/-- Nothing. -/
def empty : Pattern := text []

/-- Patterns one behind the other. -/
def sequence : List Pattern → Pattern
  | [] => empty
  | [last] => last
  | first :: others => both first (sequence others)

/-- One of some patterns, tried in order. -/
def choice (first : Pattern) : List Pattern → Pattern
  | [] => first
  | second :: others => either first (choice second others)

/-- One of some texts, tried in order. -/
def oneOf (first : String) (others : List String) : Pattern :=
  choice (literal first) (others.map literal)

/-- One round of a pattern or more. -/
def oneOrMore (round : Pattern) : Pattern := both round (many round)

/-- A pattern, or else nothing. -/
def maybe (inner : Pattern) : Pattern := either inner empty

/-- At least one round and at most `limit + 1` rounds of a pattern, as many as possible. -/
def upTo (round : Pattern) : Nat → Pattern
  | 0 => round
  | limit + 1 => both round (maybe (upTo round limit))

/-- One of the characters of a text. -/
def anyOf (chars : String) : Pattern := char fun next => chars.toList.contains next

/-- None of the characters of a text. -/
def noneOf (chars : String) : Pattern := char fun next => !chars.toList.contains next

/-- Any character. -/
def anything : Pattern := char fun _ => true

/-- Any character but a line feed. -/
def inLine : Pattern := char (· ≠ '\n')

/-- The rest of the line. -/
def restOfLine : Pattern := both (many inLine) lineEnd

/-- White space. -/
def blank : Pattern := char isBlank

/-- A word character. -/
def wordChar : Pattern := char isWordChar

/-- A digit from zero to nine. -/
def digit : Pattern := char isAsciiDigit

/-- A capital letter. -/
def capital : Pattern := char fun next => 'A' ≤ next && next ≤ 'Z'

/-- A letter or an underscore. -/
def nameStart : Pattern := char fun next => isAsciiLetter next || next = '_'

/-- One of some whole words. -/
def words (first : String) (others : List String) : Pattern :=
  sequence [wordBoundary, oneOf first others, wordBoundary]

end Pattern

end DocGrammar
