/-! # Differences between two texts

The difference between an expected and an actual list of lines, in the unified format with three
lines of context. The lines that both share are found by taking the longest common run first and
going on to both sides of it. Of equally long runs the one that starts first in the expected lines
wins, then the one that starts first in the actual lines.

* **`matchingRuns`** — the common runs, in order.
* **`edits`** — the runs and the changes between them.
* **`unifiedDiff`** — the difference in the unified format. -/

namespace DocGrammar

/-! ## Longest common runs -/

/-- A run of lines that two lists share. -/
structure CommonRun where
  /-- The index of the run in the first list. -/
  first : Nat
  /-- The index of the run in the second list. -/
  second : Nat
  /-- The number of lines of the run. -/
  size : Nat
  deriving DecidableEq, Repr

/-- Whether a line is so frequent in a long list that no run is looked for at it. -/
def isPopular (lines : List String) (line : String) : Bool :=
  200 ≤ lines.length && lines.length / 100 + 1 < lines.count line

/-- The lengths of the common runs that end at a line and at each of `others`, from the lengths
`above` of those that end one line earlier. -/
def runLengths (popular : String → Bool) (line : String) (others : List String)
    (above : List Nat) : List Nat :=
  List.zipWith (fun other length => if line = other && !popular other then length + 1 else 0)
    others (0 :: above)

/-- The longer of a run and those that end at index `row` of the first list, where the lengths of
the latter are given by their end in the second list. -/
def longerRun (row : Nat) : Nat → List Nat → CommonRun → CommonRun
  | _, [], best => best
  | column, length :: lengths, best =>
    longerRun row (column + 1) lengths
      (if best.size < length then ⟨row + 1 - length, column + 1 - length, length⟩ else best)

/-- The longest of a run and those that end from index `row` of the first list on. -/
def longestFrom (popular : String → Bool) (second : List String) :
    Nat → List Nat → List String → CommonRun → CommonRun
  | _, _, [], best => best
  | row, above, line :: lines, best =>
    let lengths := runLengths popular line second above
    longestFrom popular second (row + 1) lengths lines (longerRun row 0 lengths best)

/-- The number of lines that two lists start with in common. -/
def commonLength : List String → List String → Nat
  | line :: lines, other :: others => if line = other then commonLength lines others + 1 else 0
  | _, _ => 0

/-- A run with the equal lines on both sides of it, popular ones included. -/
def CommonRun.widen (run : CommonRun) (first second : List String) : CommonRun :=
  let back := commonLength (first.take run.first).reverse (second.take run.second).reverse
  let ahead := commonLength (first.drop (run.first + run.size)) (second.drop (run.second + run.size))
  ⟨run.first - back, run.second - back, back + run.size + ahead⟩

/-- The longest common run of two lists. -/
def longestRun (popular : String → Bool) (first second : List String) : CommonRun :=
  (longestFrom popular second 0 (second.map fun _ => 0) first ⟨0, 0, 0⟩).widen first second

/-- The common runs of two lists that start at the given indices of the whole texts, in at most
`depth` divisions. -/
def commonRuns (popular : String → Bool) :
    Nat → Nat → Nat → List String → List String → List CommonRun
  | 0, _, _, _, _ => []
  | depth + 1, start, otherStart, first, second =>
    let run := longestRun popular first second
    if run.size = 0 then []
    else
      let stop := run.first + run.size
      let otherStop := run.second + run.size
      commonRuns popular depth start otherStart (first.take run.first) (second.take run.second) ++
        ⟨start + run.first, otherStart + run.second, run.size⟩ ::
        commonRuns popular depth (start + stop) (otherStart + otherStop) (first.drop stop)
          (second.drop otherStop)

/-- Runs with those joined that follow each other in both lists. -/
def joinRuns : List CommonRun → List CommonRun
  | [] => []
  | run :: runs =>
    match joinRuns runs with
    | [] => [run]
    | next :: others =>
      if run.first + run.size = next.first && run.second + run.size = next.second then
        ⟨run.first, run.second, run.size + next.size⟩ :: others
      else run :: next :: others

/-- The common runs of two texts. Every division finds a run, so there are at most as many as
lines. -/
def matchingRuns (first second : List String) : List CommonRun :=
  joinRuns (commonRuns (isPopular second) (first.length + 1) 0 0 first second)

/-! ## Edits -/

/-- A step from the expected to the actual lines: lines that stay, or lines that are replaced. -/
structure Edit where
  /-- Whether the lines stay. -/
  isKept : Bool
  /-- The index of the old lines. -/
  oldStart : Nat
  /-- The index of the new lines. -/
  newStart : Nat
  /-- The old lines. -/
  old : List String
  /-- The new lines, the same as the old ones if they stay. -/
  new : List String
  deriving DecidableEq, Repr

namespace Edit

/-- An edit without its first lines. -/
def drop (edit : Edit) (count : Nat) : Edit :=
  ⟨edit.isKept, edit.oldStart + min count edit.old.length,
    edit.newStart + min count edit.new.length, edit.old.drop count, edit.new.drop count⟩

/-- An edit without all but its first lines. -/
def take (edit : Edit) (count : Nat) : Edit :=
  { edit with old := edit.old.take count, new := edit.new.take count }

/-- The last lines of an edit. -/
def takeLast (edit : Edit) (count : Nat) : Edit := edit.drop (edit.old.length - count)

/-- The lines of an edit in the unified format. -/
def lines (edit : Edit) : List String :=
  if edit.isKept then edit.old.map (" " ++ ·)
  else edit.old.map ("-" ++ ·) ++ edit.new.map ("+" ++ ·)

end Edit

/-- The edits from two indices on: what is replaced before each run, and the run. -/
def editsFrom (first second : List String) : Nat → Nat → List CommonRun → List Edit
  | start, otherStart, runs =>
    match runs with
    | [] => change start otherStart (first.drop start) (second.drop otherStart)
    | run :: others =>
      change start otherStart ((first.take run.first).drop start)
        ((second.take run.second).drop otherStart) ++
      ⟨true, run.first, run.second, (first.drop run.first).take run.size,
        (second.drop run.second).take run.size⟩ ::
      editsFrom first second (run.first + run.size) (run.second + run.size) others
where
  /-- The replacement of some lines, unless there are none. -/
  change (start otherStart : Nat) (old new : List String) : List Edit :=
    if old.isEmpty && new.isEmpty then [] else [⟨false, start, otherStart, old, new⟩]

/-- The edits that lead from one text to another. -/
def edits (first second : List String) : List Edit :=
  editsFrom first second 0 0 (matchingRuns first second)

/-! ## The unified format -/

/-- The number of lines of context. -/
def contextLines : Nat := 3

/-- Edits with the lines that stay at the start of the text cut down to the context. -/
def cutStart : List Edit → List Edit
  | [] => []
  | edit :: others => (if edit.isKept then edit.takeLast contextLines else edit) :: others

/-- Edits with the lines that stay at the end of the text cut down to the context. -/
def cutEnd : List Edit → List Edit
  | [] => []
  | [edit] => [if edit.isKept then edit.take contextLines else edit]
  | edit :: others => edit :: cutEnd others

/-- A group of edits that are shown together, unless nothing changes in it. -/
def groupOf (group : List Edit) : List (List Edit) :=
  if group.all Edit.isKept then [] else [group]

/-- Edits in groups: a long run of lines that stay ends one group and starts the next. -/
def groups (group : List Edit) : List Edit → List (List Edit)
  | [] => groupOf group
  | edit :: others =>
    if edit.isKept && 2 * contextLines < edit.old.length then
      (group ++ [edit.take contextLines]) :: groups [edit.takeLast contextLines] others
    else groups (group ++ [edit]) others

/-- A range of lines: its first number and its length, if that is not one. -/
def rangeText (start length : Nat) : String :=
  if length = 1 then toString (start + 1)
  else toString (if length = 0 then start else start + 1) ++ "," ++ toString length

/-- The line that heads a group. -/
def groupHeader (group : List Edit) : String :=
  let oldStart := (group.head?.map Edit.oldStart).getD 0
  let newStart := (group.head?.map Edit.newStart).getD 0
  let oldLength := (group.flatMap Edit.old).length
  let newLength := (group.flatMap Edit.new).length
  "@@ -" ++ rangeText oldStart oldLength ++ " +" ++ rangeText newStart newLength ++ " @@"

/-- The difference between two texts in the unified format, with names for both. Equal texts have
no difference. -/
def unifiedDiff (name otherName : String) (first second : List String) : List String :=
  let shown := groups [] (cutEnd (cutStart (edits first second)))
  if shown.isEmpty then []
  else
    ("--- " ++ name) :: ("+++ " ++ otherName) ::
      shown.flatMap fun group => groupHeader group :: group.flatMap Edit.lines

end DocGrammar
