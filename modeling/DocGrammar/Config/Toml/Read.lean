import DocGrammar.Config.Toml.Scalar

/-! # Reading a settings file

A settings file is a list of lines: comments, table headers, and keys with their values. A header
opens a table, and the values below it belong to that table. No table is opened twice, and nothing
is added to a value that was written out in braces or brackets.

* **`Toml.value?`** — any value.
* **`Toml.read?`** — the table of a whole file, or nothing if the file is malformed. -/

namespace DocGrammar

namespace Toml

/-! ## Values -/

/-- The text behind a comment, if there is one: the end of the line. -/
def skipComment? : List Char → Option (List Char)
  | '#' :: rest =>
    if (rest.takeWhile (· ≠ '\n')).any isIllegal then none else some (rest.dropWhile (· ≠ '\n'))
  | chars => some chars

/-- The text behind white space, line ends and at most `fuel` comments. -/
def skipLines? : Nat → List Char → Option (List Char)
  | 0, chars => some chars
  | fuel + 1, chars =>
    match chars.dropWhile fun char => isSpace char || char = '\n' with
    | '#' :: rest => (skipComment? ('#' :: rest)).bind (skipLines? fuel)
    | rest => some rest

/-- The text behind white space, line ends and comments. -/
def skipBetween? (chars : List Char) : Option (List Char) := skipLines? chars.length chars

/-- Paths that are complete: nothing below them can be changed. -/
abbrev Frozen : Type := List Path

/-- Whether a path is complete or lies below a complete one. -/
def Frozen.covers (frozen : Frozen) (path : Path) : Bool :=
  frozen.any fun complete => complete.isPrefixOf path

/-- Whether a value is an array or a table that was written out. -/
def isCompound : Toml → Bool
  | .array _ | .table _ => true
  | _ => false

mutual

/-- A value, read in at most `fuel` steps. -/
def valueFrom? : Nat → Reader Toml
  | 0, _ => none
  | _ + 1, [] => none
  | fuel + 1, char :: rest =>
    if char = '"' || char = '\'' then
      (string? (char :: rest)).map fun (text, behind) => (.string (String.ofList text), behind)
    else if char = '[' then do
      let inner ← skipBetween? rest
      match inner with
      | ']' :: behind => return (.array [], behind)
      | _ =>
        let (items, behind) ← itemsFrom? fuel inner
        return (.array items, behind)
    else if char = '\x7b' then
      match skipSpaces rest with
      | '\x7d' :: behind => some (.table [], behind)
      | inner => do
        let (entries, behind) ← entriesFrom? fuel [] [] inner
        return (.table entries, behind)
    else if ['t', 'r', 'u', 'e'].isPrefixOf (char :: rest) then
      some (.boolean true, rest.drop 3)
    else if ['f', 'a', 'l', 's', 'e'].isPrefixOf (char :: rest) then
      some (.boolean false, rest.drop 4)
    else number? (char :: rest)

/-- The items of an array up to its closing bracket. -/
def itemsFrom? : Nat → Reader (List Toml)
  | 0, _ => none
  | fuel + 1, chars => do
    let (item, rest) ← valueFrom? fuel chars
    match ← skipBetween? rest with
    | ']' :: behind => return ([item], behind)
    | ',' :: behindComma =>
      match ← skipBetween? behindComma with
      | ']' :: behind => return ([item], behind)
      | next =>
        let (others, behind) ← itemsFrom? fuel next
        return (item :: others, behind)
    | _ => none

/-- The entries of a table between braces, added to those before them. -/
def entriesFrom? : Nat → Frozen → Table → Reader Table
  | 0, _, _, _ => none
  | fuel + 1, frozen, entries, chars => do
    let (path, behindKey) ← key? chars
    match behindKey with
    | '=' :: behindMark =>
      let (value, rest) ← valueFrom? fuel (skipSpaces behindMark)
      if frozen.covers path then none
      let extended ← Table.put? false path.dropLast (path.getLast?.getD "") value entries
      match skipSpaces rest with
      | '\x7d' :: behind => return (extended, behind)
      | ',' :: behindComma =>
        entriesFrom? fuel (if isCompound value then path :: frozen else frozen) extended
          (skipSpaces behindComma)
      | _ => none
    | _ => none

end

/-- A value. -/
def value? (chars : List Char) : Option (Toml × List Char) :=
  valueFrom? (2 * chars.length + 2) chars

/-! ## Files -/

/-- What was read of a file. -/
structure FileState where
  /-- The values. -/
  table : Table
  /-- The path of the table that values are put into. -/
  header : Path
  /-- The paths of tables that cannot be opened again. -/
  opened : List Path
  /-- The paths of tables made by dotted keys below the current header. -/
  pending : List Path
  /-- The paths of values that were written out. -/
  frozen : Frozen
  deriving Repr

namespace FileState

/-- The state before the first line. -/
def start : FileState := ⟨[], [], [], [], []⟩

/-- The state behind a key and its value. -/
def put? (state : FileState) (path : Path) (value : Toml) : Option FileState := do
  let outer := path.dropLast
  let between := (List.range outer.length).map fun count =>
    state.header ++ outer.take (count + 1)
  if between.any state.opened.contains then none
  let parent := state.header ++ outer
  if state.frozen.covers parent then none
  let table ← Table.put? true parent (path.getLast?.getD "") value state.table
  let frozen := if isCompound value then (state.header ++ path) :: state.frozen else state.frozen
  return { state with table, pending := between ++ state.pending, frozen }

/-- The state in which dotted keys cannot reopen the tables that they made. -/
def settle (state : FileState) : FileState :=
  { state with opened := state.pending ++ state.opened, pending := [] }

/-- The state behind the header of a table. -/
def openTable? (state : FileState) (path : Path) : Option FileState := do
  if state.opened.contains path || state.frozen.covers path then none
  return { state with
    table := ← Table.openTable? path state.table, header := path, opened := path :: state.opened }

/-- The state behind the header of a table in an array. -/
def pushTable? (state : FileState) (path : Path) : Option FileState := do
  if state.frozen.covers path then none
  let isFree (other : Path) : Bool := !path.isPrefixOf other
  return { state with
    table := ← Table.pushTable? path.dropLast (path.getLast?.getD "") state.table, header := path
    opened := path :: state.opened.filter isFree, frozen := state.frozen.filter isFree }

end FileState

/-- The state behind a statement, and the text behind it. -/
def statement? (state : FileState) : Reader FileState
  | '[' :: '[' :: rest => do
    let (path, behind) ← key? (skipSpaces rest)
    match behind with
    | ']' :: ']' :: others => return (← state.settle.pushTable? path, others)
    | _ => none
  | '[' :: rest => do
    let (path, behind) ← key? (skipSpaces rest)
    match behind with
    | ']' :: others => return (← state.settle.openTable? path, others)
    | _ => none
  | chars => do
    let (path, behindKey) ← key? chars
    match behindKey with
    | '=' :: behindMark =>
      let (value, rest) ← value? (skipSpaces behindMark)
      return (← state.put? path value, rest)
    | _ => none

/-- The table behind at most `fuel` lines. -/
def linesFrom? : Nat → FileState → List Char → Option Table
  | 0, _, _ => none
  | fuel + 1, state, chars =>
    match skipSpaces chars with
    | [] => some state.table
    | '\n' :: rest => linesFrom? fuel state rest
    | line => do
      let (next, rest) ← if line.head? = some '#' then some (state, line) else statement? state line
      match ← skipComment? (skipSpaces rest) with
      | [] => some next.table
      | '\n' :: others => linesFrom? fuel next others
      | _ => none

/-- The text with each carriage return before a line feed left out. -/
def joinBreaks : List Char → List Char
  | [] => []
  | '\r' :: '\n' :: rest => '\n' :: joinBreaks rest
  | char :: rest => char :: joinBreaks rest

/-- The table of a settings file. -/
def read? (text : String) : Option Table :=
  let chars := joinBreaks text.toList
  linesFrom? (chars.length + 1) .start chars

end Toml

end DocGrammar
