/-! # Positions and spans

Every token, node and diagnostic names the stretch of a document that it stands for. Lines and
columns count from one, and a column counts code points.

* **`Position`** — a line and a column, with **`Position.after`**, the position behind some text.
* **`Span`** — the first and the last position of a stretch of a file. -/

namespace DocGrammar

/-! ## Positions -/

/-- A place in a document. The numbers are unbounded, and lexing may start anywhere. -/
structure Position where
  /-- The line, counted from one. -/
  line : Int
  /-- The column, counted from one. -/
  column : Int
  deriving DecidableEq, Repr, Inhabited

namespace Position

/-- The first place of a document. -/
def origin : Position := ⟨1, 1⟩

/-- The place behind one character: a line feed starts a new line. -/
def step (position : Position) (char : Char) : Position :=
  if char = '\n' then ⟨position.line + 1, 1⟩ else ⟨position.line, position.column + 1⟩

/-- The place behind a stretch of text. -/
def after (position : Position) (chars : List Char) : Position :=
  chars.foldl step position

@[simp] theorem after_nil (position : Position) : position.after [] = position := rfl

@[simp] theorem after_cons (position : Position) (char : Char) (chars : List Char) :
    position.after (char :: chars) = (position.step char).after chars := rfl

@[simp] theorem after_append (position : Position) (first second : List Char) :
    position.after (first ++ second) = (position.after first).after second := by
  simp [after]

end Position

/-! ## Spans -/

/-- A stretch of a file, from its first position to its last one. -/
structure Span where
  /-- The name of the file. -/
  file : String
  /-- The position of the first character. -/
  start : Position
  /-- The position of the last character. -/
  stop : Position
  deriving DecidableEq, Repr, Inhabited

namespace Span

/-- The span of a single position. -/
def point (file : String) (position : Position) : Span := ⟨file, position, position⟩

/-- The first position of a file, where errors about a whole document are reported. -/
def fileStart (file : String) : Span := point file Position.origin

/-- The span from the start of one span to the end of another, in the file of the first. -/
def through (first last : Span) : Span := ⟨first.file, first.start, last.stop⟩

/-- How messages name a span: file, line and column of its start. -/
def display (span : Span) : String :=
  span.file ++ ":" ++ toString span.start.line ++ ":" ++ toString span.start.column

@[simp] theorem file_through (first last : Span) : (first.through last).file = first.file := rfl

@[simp] theorem start_through (first last : Span) : (first.through last).start = first.start := rfl

@[simp] theorem stop_through (first last : Span) : (first.through last).stop = last.stop := rfl

end Span

/-- The file name of a text that comes from no file. -/
def inputFile : String := "<input>"

end DocGrammar
