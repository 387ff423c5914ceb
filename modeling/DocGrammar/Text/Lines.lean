/-! # Lines of a text

A text is cut into lines in two ways:

* **`feedLines`** cuts at line feeds only, so that a text always has at least one line. The
  document tokens number lines this way.
* **`breakLines`** cuts at every line break of the Unicode standard and drops the empty line after
  a final break. Listings in diagnostics and fixture files use it. -/

namespace DocGrammar

/-! ## Lines between line feeds -/

/-- The pieces of a text between its line feeds. -/
def feedLines : List Char → List (List Char)
  | [] => [[]]
  | char :: rest =>
    if char = '\n' then [] :: feedLines rest
    else
      match feedLines rest with
      | [] => [[char]]
      | line :: lines => (char :: line) :: lines

/-- A text has at least one line. -/
theorem feedLines_ne_nil (chars : List Char) : feedLines chars ≠ [] := by
  cases chars with
  | nil => simp [feedLines]
  | cons char rest =>
    rw [feedLines]
    split
    · simp
    · split <;> simp

/-- Joining the lines of a text by line feeds gives the text back. -/
theorem intercalate_feedLines (chars : List Char) :
    List.intercalate ['\n'] (feedLines chars) = chars := by
  induction chars with
  | nil => simp [feedLines, List.intercalate]
  | cons char rest ih =>
    rw [feedLines]
    cases lines : feedLines rest with
    | nil => exact absurd lines (feedLines_ne_nil rest)
    | cons line others =>
      rw [lines] at ih
      split
      · subst char
        rw [← ih]
        simp [List.intercalate, List.intersperse]
      · cases others with
        | nil => simpa [List.intercalate, List.intersperse] using ih
        | cons other more =>
          simp only [List.intercalate, List.intersperse, List.flatten_cons, List.cons_append,
            List.cons.injEq, true_and]
          simpa [List.intercalate, List.intersperse] using ih

/-- A line without the carriage return that may end it. -/
def dropReturn (line : List Char) : List Char :=
  if line.getLast? = some '\r' then line.dropLast else line

/-- The text with every carriage return, and a line feed behind it, as one line feed. -/
def normalizeBreaks : List Char → List Char
  | [] => []
  | '\r' :: '\n' :: rest => '\n' :: normalizeBreaks rest
  | char :: rest => (if char = '\r' then '\n' else char) :: normalizeBreaks rest

/-! ## Lines between line breaks -/

/-- Whether a character ends a line. A carriage return and the line feed after it end it once. -/
def isLineBreak (char : Char) : Bool :=
  ('\n' ≤ char && char ≤ '\r') || (Char.ofNat 0x1c ≤ char && char ≤ Char.ofNat 0x1e) ||
    char = Char.ofNat 0x85 || char = Char.ofNat 0x2028 || char = Char.ofNat 0x2029

/-- The lines of a text, each without its line break. -/
def breakLines : List Char → List (List Char)
  | [] => []
  | '\r' :: '\n' :: rest => [] :: breakLines rest
  | char :: rest =>
    if isLineBreak char then [] :: breakLines rest
    else
      match breakLines rest with
      | [] => [[char]]
      | line :: lines => (char :: line) :: lines

/-- The lines of a string, each without its line break. -/
def textLines (text : String) : List String :=
  (breakLines text.toList).map String.ofList

end DocGrammar
