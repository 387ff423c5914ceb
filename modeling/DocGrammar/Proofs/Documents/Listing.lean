import DocGrammar.Diagnostic.Report
import DocGrammar.Proofs.Documents.Extent

/-! # Rows in listings

Tokens count the rows of a text at its line feeds, a listing cuts the text at every line break. The
character check leaves four line breaks that may stand inside a row, and up to the first row that
holds one of them, but no further, the listing has the rows that tokens count.

* **`breakLines_row`**, **`breakLines_broken`** — the first line of a text and its first row.
* **`breakLine_eq_plainRow_iff`** — how far the lines of a text are its rows.
* **`Listing.numbers_rows`** — the lines that a listing has for the tokens of a text and quotes for
  diagnostics.
* **`Listing.lineAt_ne_rowAt`** — a text whose listing has other lines. -/

namespace DocGrammar

/-! ## Lines of a row -/

variable {row rest : List Char} {rows : List (List Char)}

/-- Whether no line break stands in a row, but for the carriage return that may end it. -/
def IsUnbroken (row : List Char) : Prop := ∀ char ∈ dropReturn row, isLineBreak char = false

/-- A character that is no line break starts the line behind it. -/
theorem breakLines_cons {char : Char} (plain : isLineBreak char = false) (rest : List Char) :
    breakLines (char :: rest) =
      (char :: ((breakLines rest).head?.getD [])) :: (breakLines rest).tail := by
  have noReturn : char ≠ '\r' := by
    rintro rfl
    exact absurd plain (by decide)
  rw [breakLines, if_neg (by rw [plain]; exact Bool.false_ne_true)]
  · cases breakLines rest <;> rfl
  · exact fun _ same _ => noReturn same

/-- A line break ends a line, whatever stands behind it. -/
theorem breakLines_break {char : Char} (breaks : isLineBreak char = true) (rest : List Char) :
    ∃ others, breakLines (char :: rest) = [] :: others := by
  unfold breakLines
  split
  · next same => cases same
  · exact ⟨_, rfl⟩
  · next same =>
    cases same
    rw [if_pos breaks]
    exact ⟨_, rfl⟩

/-- What stands in front of the first line break belongs to the first line. -/
theorem breakLines_append (plain : ∀ char ∈ row, isLineBreak char = false) {line : List Char}
    {lines : List (List Char)} (behind : breakLines rest = line :: lines) :
    breakLines (row ++ rest) = (row ++ line) :: lines := by
  induction row with
  | nil => exact behind
  | cons char row ih =>
    obtain ⟨here, inner⟩ := List.forall_mem_cons.mp plain
    rw [List.cons_append, breakLines_cons here, ih inner]
    rfl

/-- A text without line breaks is a line unless it is empty. -/
theorem breakLines_plain (plain : ∀ char ∈ row, isLineBreak char = false) (nonempty : row ≠ []) :
    breakLines row = [row] := by
  induction row with
  | nil => exact absurd rfl nonempty
  | cons char row ih =>
    obtain ⟨here, inner⟩ := List.forall_mem_cons.mp plain
    rw [breakLines_cons here]
    cases row with
    | nil => rfl
    | cons next row =>
      rw [ih inner (List.cons_ne_nil _ _)]
      rfl

/-- A row that is not broken is the first line of the text that it starts. -/
theorem breakLines_row (unbroken : IsUnbroken row) (rest : List Char) :
    breakLines (row ++ '\n' :: rest) = dropReturn row :: breakLines rest := by
  have feed : breakLines ('\n' :: rest) = [] :: breakLines rest := by
    rw [breakLines, if_pos (by decide)]
    exact fun _ same _ => absurd same (by decide)
  have both : breakLines ('\r' :: '\n' :: rest) = [] :: breakLines rest := by rw [breakLines]
  rcases dropReturn_cases row with same | same
  · have whole := breakLines_append unbroken feed
    rw [List.append_nil, ← same] at whole
    rw [← same]
    exact whole
  · have whole := breakLines_append unbroken both
    rw [List.append_nil, List.append_cons, ← same] at whole
    exact whole

/-- A last row that is not broken is the only line of its text. -/
theorem breakLines_last (unbroken : IsUnbroken row) :
    breakLines row = if row = [] then [] else [dropReturn row] := by
  rcases dropReturn_cases row with same | same
  · rw [IsUnbroken, ← same] at unbroken
    rw [← same]
    split
    · next empty => rw [empty, breakLines]
    · next nonempty => exact breakLines_plain unbroken nonempty
  · have alone : breakLines ['\r'] = [[]] := by decide
    have whole := breakLines_append unbroken alone
    rw [← same, List.append_nil] at whole
    rw [whole, if_neg]
    rw [same]
    exact List.append_ne_nil_of_right_ne_nil _ (List.cons_ne_nil _ _)

/-- A row with a line break inside is not the first line of the text that it starts. -/
theorem breakLines_broken (broken : ¬IsUnbroken row) (rest : List Char) :
    (breakLines (row ++ rest)).head?.getD [] ≠ dropReturn row := by
  obtain ⟨tail, whole⟩ := dropReturn_isPrefix row
  have breaks : ((dropReturn row).find? isLineBreak).isSome := by
    rw [List.find?_isSome]
    simpa [IsUnbroken] using broken
  -- the line ends at the first break, the row goes on
  obtain ⟨char, first⟩ := Option.isSome_iff_exists.mp breaks
  obtain ⟨holds, front, back, split, plain⟩ := List.find?_eq_some_iff_append.mp first
  obtain ⟨others, behind⟩ := breakLines_break holds (back ++ tail ++ rest)
  have inner : ∀ other ∈ front, isLineBreak other = false := fun other member => by
    simpa using plain other member
  have line := breakLines_append inner behind
  have same : row ++ rest = front ++ char :: (back ++ tail ++ rest) := by
    rw [← whole, split]
    simp only [List.append_assoc, List.cons_append]
  rw [same, line, split, List.head?_cons, Option.getD_some, List.append_nil]
  exact fun equal => absurd (List.self_eq_append_right.mp equal) (List.cons_ne_nil _ _)

/-! ## Lines of some rows -/

/-- The line of a text with a given number, counted from zero, empty if there is none. -/
def breakLine (text : List Char) (number : Nat) : List Char := (breakLines text)[number]?.getD []

/-- The row of a given number, counted from zero and without the carriage return that may end it,
empty if there is none. -/
def plainRow (rows : List (List Char)) (number : Nat) : List Char :=
  (rows.map dropReturn)[number]?.getD []

/-- A last row that is not broken is read as the first line, empty if there is no line. -/
theorem breakLine_last (unbroken : IsUnbroken row) (number : Nat) :
    breakLine row number = plainRow [row] number := by
  rw [breakLine, breakLines_last unbroken]
  cases number with
  | succ number =>
    split
    · rfl
    · rfl
  | zero =>
    split
    · next empty =>
      rw [empty]
      rfl
    · rfl

/-- A row that is not broken is read as the first line, and the text behind it as the others. -/
theorem breakLine_row (unbroken : IsUnbroken row) (rest : List Char) :
    breakLine (row ++ '\n' :: rest) 0 = dropReturn row ∧
      ∀ number, breakLine (row ++ '\n' :: rest) (number + 1) = breakLine rest number := by
  simp only [breakLine, breakLines_row unbroken rest]
  exact ⟨rfl, fun _ => rfl⟩

/-- The lines of a text are its rows as far as these are not broken, and no further. -/
theorem breakLine_eq_plainRow_iff (nonempty : rows ≠ []) (number : Nat) :
    (∀ before ≤ number, breakLine (['\n'].intercalate rows) before = plainRow rows before) ↔
      ∀ row ∈ rows.take (number + 1), IsUnbroken row := by
  induction rows generalizing number with
  | nil => exact absurd rfl nonempty
  | cons row others ih =>
    obtain ⟨rest, whole⟩ : ∃ rest, ['\n'].intercalate (row :: others) = row ++ rest := by
      cases others with
      | nil => exact ⟨[], by rw [List.intercalate_singleton, List.append_nil]⟩
      | cons next more => exact ⟨_, by rw [List.intercalate_cons_cons, List.append_assoc]⟩
    rw [List.take_succ_cons, List.forall_mem_cons]
    by_cases unbroken : IsUnbroken row
    · rw [and_iff_right unbroken]
      cases others with
      | nil =>
        rw [List.intercalate_singleton, List.take_nil]
        exact ⟨fun _ => List.forall_mem_nil _, fun _ before _ => breakLine_last unbroken before⟩
      | cons next more =>
        obtain ⟨first, later⟩ := breakLine_row unbroken (['\n'].intercalate (next :: more))
        rw [List.intercalate_cons_cons, List.append_assoc, List.singleton_append]
        cases number with
        | zero =>
          refine ⟨fun _ => List.forall_mem_nil _, fun _ before le => ?_⟩
          rw [Nat.le_zero.mp le]
          exact first
        | succ number =>
          rw [← ih (List.cons_ne_nil _ _) number]
          refine ⟨fun agree before le => ?_, fun agree before le => ?_⟩
          · exact (later before).symm.trans (agree (before + 1) (Nat.succ_le_succ le))
          · cases before with
            | zero => exact first
            | succ before => exact (later before).trans (agree before (Nat.le_of_succ_le_succ le))
    · -- the first line is not the first row
      have differs := breakLines_broken unbroken rest
      refine ⟨fun agree => absurd (agree 0 (Nat.zero_le _)) ?_, fun all => absurd all.1 unbroken⟩
      rwa [breakLine, whole, ← List.head?_eq_getElem?]

/-! ## Listings of texts whose characters are allowed -/

/-- The line breaks that the character check lets stand inside a row: a carriage return in front of
no line feed, the next-line character and the separators of lines and paragraphs. -/
def strayBreaks : List Char := ['\r', Char.ofNat 0x85, Char.ofNat 0x2028, Char.ofNat 0x2029]

/-- The tab and the carriage return are the control characters that are not forbidden. -/
theorem eq_of_isForbidden {char : Char} (allowed : isForbidden char = false)
    (control : char.toNat < 32) : char = '\t' ∨ char = '\r' := by
  have below : char < ' ' := UInt32.lt_iff_toNat_lt.mpr control
  simp only [isForbidden, below, decide_true, Bool.true_and, Bool.or_eq_false_iff,
    Bool.and_eq_false_iff, decide_eq_false_iff_not, Decidable.not_not] at allowed
  exact allowed.1

/-- The line breaks that are not forbidden are those that may stray and the line feed. -/
theorem isLineBreak_iff_mem_strayBreaks {char : Char} (allowed : isForbidden char = false) :
    isLineBreak char = true ↔ char ∈ strayBreaks := by
  refine ⟨fun breaks => ?_, fun stray => ?_⟩
  · simp only [isLineBreak, Bool.or_eq_true, decide_eq_true_eq] at breaks
    simp only [strayBreaks, List.mem_cons, List.not_mem_nil, or_false]
    rcases breaks with ((((low | high) | next) | line) | paragraph)
    · have bounds := toNat_of_within low
      rcases eq_of_isForbidden allowed (Nat.lt_of_le_of_lt bounds.2 (by decide)) with rfl | same
      · exact absurd bounds.1 (by decide)
      · exact Or.inl same
    · have bounds := toNat_of_within high
      rcases eq_of_isForbidden allowed (Nat.lt_of_le_of_lt bounds.2 (by decide)) with rfl | rfl
      · exact absurd bounds.1 (by decide)
      · exact absurd bounds.1 (by decide)
    · exact Or.inr (Or.inl next)
    · exact Or.inr (Or.inr (Or.inl line))
    · exact Or.inr (Or.inr (Or.inr paragraph))
  · have all : strayBreaks.all isLineBreak = true := by decide
    exact List.all_eq_true.mp all char stray

/-- The row of a text with a given number, counted from one, without the carriage return that may
end it. -/
def rowAt (text : String) (number : Int) : String :=
  String.ofList ((documentRows text.toList)[(number - 1).toNat]?.getD [])

namespace Listing

variable {file text : String}

/-- The line of a listing, counted from one, is that of the text, counted from zero. -/
theorem lineAt_eq_breakLine (file text : String) (number : Nat) :
    (ofText file text).lineAt (number + 1) = String.ofList (breakLine text.toList number) := by
  rw [lineAt, line?, if_pos (by omega), Int.add_sub_cancel, Int.toNat_natCast, ofText, textLines,
    List.getElem?_map, breakLine]
  cases (breakLines text.toList)[number]? <;> rfl

/-- The row of a text, counted from one, is that of its rows, counted from zero. -/
theorem rowAt_eq_plainRow (text : String) (number : Nat) :
    rowAt text (number + 1) = String.ofList (plainRow (feedLines text.toList) number) := by
  rw [rowAt, Int.add_sub_cancel, Int.toNat_natCast, documentRows, plainRow]

/-- A listing has the rows of a text as far as none of them holds a stray line break, and no
further. -/
theorem lineAt_eq_rowAt_iff {tokens : List Token} (read : documentTokens file text = .ok tokens)
    {number : Int} (positive : 1 ≤ number) :
    (∀ before, 1 ≤ before → before ≤ number →
        (ofText file text).lineAt before = rowAt text before) ↔
      ∀ row ∈ (documentRows text.toList).take number.toNat, ∀ char ∈ row, char ∉ strayBreaks := by
  obtain ⟨count, rfl⟩ : ∃ count : Nat, number = count + 1 := ⟨(number - 1).toNat, by omega⟩
  have allowed : ∀ row ∈ feedLines text.toList, ∀ char ∈ dropReturn row,
      isForbidden char = false := by
    obtain ⟨lines, cut, _⟩ := exists_of_bind_ok read
    exact isForbidden_of_tokensOfLines cut
  have lines := breakLine_eq_plainRow_iff (feedLines_ne_nil text.toList) count
  rw [intercalate_feedLines] at lines
  -- numbers are counted from one on the left and from zero on the right
  have counts : (∀ before, 1 ≤ before → before ≤ (count : Int) + 1 →
      (ofText file text).lineAt before = rowAt text before) ↔
        ∀ before ≤ count,
          breakLine text.toList before = plainRow (feedLines text.toList) before := by
    refine ⟨fun agree before le => ?_, fun agree before first last => ?_⟩
    · have same := agree (before + 1) (by omega) (by omega)
      rwa [lineAt_eq_breakLine, rowAt_eq_plainRow, String.ofList_inj] at same
    · obtain ⟨number, rfl⟩ : ∃ number : Nat, before = number + 1 := ⟨(before - 1).toNat, by omega⟩
      rw [lineAt_eq_breakLine, rowAt_eq_plainRow, agree number (by omega)]
  rw [counts, lines, documentRows, ← List.map_take, List.forall_mem_map]
  refine forall₂_congr fun row member => forall₂_congr fun char inside => ?_
  rw [← isLineBreak_iff_mem_strayBreaks (allowed row (List.mem_of_mem_take member) char inside),
    Bool.not_eq_true]

/-- A diagnostic quotes a line of the listing of its file. -/
theorem lineAt_of_sourceLine? {diagnostic : Diagnostic} {listing : Listing} {source : String}
    (quoted : diagnostic.sourceLine? [listing] = some source) :
    diagnostic.span.file = listing.file ∧ 1 ≤ diagnostic.span.start.line ∧
      listing.lineAt diagnostic.span.start.line = source := by
  obtain ⟨found, named, line⟩ := Option.bind_eq_some_iff.mp quoted
  have same : listing = found := List.mem_singleton.mp (List.mem_of_find?_eq_some named) |>.symm
  subst same
  have file := List.find?_some named
  refine ⟨(beq_iff_eq.mp file).symm, ?_, ?_⟩
  · rw [line?] at line
    split at line
    · assumption
    · cases line
  · rw [lineAt, line, Option.getD_some]

/-- A token stands on a row of its text. Up to this row the listing of the text has the same lines
exactly if no row holds a stray line break, and what a diagnostic quotes from this listing is the
row it starts on if neither this row nor one above it holds such a break. -/
theorem numbers_rows {file text : String} {tokens : List Token}
    (read : documentTokens file text = .ok tokens) :
    (∀ token ∈ tokens, 1 ≤ token.line ∧ token.line ≤ (documentRows text.toList).length ∧
      ((∀ number, 1 ≤ number → number ≤ token.line →
          (ofText file text).lineAt number = rowAt text number) ↔
        ∀ row ∈ (documentRows text.toList).take token.line.toNat,
          ∀ char ∈ row, char ∉ strayBreaks)) ∧
      ∀ (diagnostic : Diagnostic) (source : String),
        diagnostic.sourceLine? [ofText file text] = some source →
        (∀ row ∈ (documentRows text.toList).take diagnostic.span.start.line.toNat,
          ∀ char ∈ row, char ∉ strayBreaks) →
        source = rowAt text diagnostic.span.start.line := by
  have placed := rows_of_documentTokens file text
  rw [read] at placed
  refine ⟨fun token member => ?_, fun diagnostic source quoted plain => ?_⟩
  · obtain ⟨first, last⟩ := placed.rows token member
    rw [documentRows, List.length_map]
    exact ⟨first, last, lineAt_eq_rowAt_iff read first⟩
  · obtain ⟨_, first, line⟩ := lineAt_of_sourceLine? quoted
    -- the quoted line is that of the listing, which is the row if nothing above it strays
    rw [← line]
    exact (lineAt_eq_rowAt_iff read first).mpr plain _ first (Int.le_refl _)

/-- A return in front of a line feed does not stray: the listing has the row of each token. -/
theorem numbers_rows_returns : ∃ tokens, documentTokens "f.md" "a\r\nb" = .ok tokens ∧
    tokens.map (fun token => (token.value, token.line)) =
      [("a", 1), ("\n", 1), ("b", 2), ("\n", 2), ("", 2)] ∧
    (∀ row ∈ documentRows "a\r\nb".toList, ∀ char ∈ row, char ∉ strayBreaks) ∧
    ∀ token ∈ tokens, (ofText "f.md" "a\r\nb").lineAt token.line = rowAt "a\r\nb" token.line := by
  have values : (documentTokens "f.md" "a\r\nb").map
      (List.map fun token => (token.value, token.line)) =
      .ok [("a", 1), ("\n", 1), ("b", 2), ("\n", 2), ("", 2)] := rfl
  have rows : documentRows "a\r\nb".toList = [['a'], ['b']] := rfl
  have plain : ∀ row ∈ documentRows "a\r\nb".toList, ∀ char ∈ row, char ∉ strayBreaks := by
    rw [rows]
    simp [strayBreaks]
  cases read : documentTokens "f.md" "a\r\nb" with
  | error diagnostic =>
    rw [read] at values
    cases values
  | ok tokens =>
    rw [read] at values
    refine ⟨tokens, rfl, Except.ok.inj values, plain, fun token member => ?_⟩
    obtain ⟨first, _, agree⟩ := (numbers_rows read).1 token member
    exact agree.mpr (fun row inside => plain row (List.mem_of_mem_take inside)) _ first
      (Int.le_refl _)

/-- A separator of lines inside a heading shifts the lines of a listing: what is quoted for a
diagnostic of the second row is the end of the first. -/
theorem lineAt_ne_rowAt :
    (∃ tokens, documentTokens "<input>" "# Feature: a\u2028b\n## Baz" = .ok tokens ∧
      ∃ token ∈ tokens, (ofText "<input>" "# Feature: a\u2028b\n## Baz").lineAt token.line ≠
        rowAt "# Feature: a\u2028b\n## Baz" token.line) ∧
    ∃ diagnostic ∈ (parseDocument .builtIn "<input>" 100 (some "specs")
        "# Feature: a\u2028b\n## Baz").diagnostics,
      diagnostic.sourceLine? [ofText "<input>" "# Feature: a\u2028b\n## Baz"] = some "b" ∧
      rowAt "# Feature: a\u2028b\n## Baz" diagnostic.span.start.line = "## Baz" := by
  have values : (documentTokens "<input>" "# Feature: a\u2028b\n## Baz").map
      (List.map fun token => (token.value, token.line)) =
      .ok [("#", 1), ("Feature: a\u2028b", 1), ("\n", 1), ("##", 2), ("Baz", 2), ("\n", 2),
        ("", 2)] := rfl
  have quoted : (parseDocument .builtIn "<input>" 100 (some "specs")
      "# Feature: a\u2028b\n## Baz").diagnostics.map (fun diagnostic =>
        (diagnostic.sourceLine? [ofText "<input>" "# Feature: a\u2028b\n## Baz"],
          rowAt "# Feature: a\u2028b\n## Baz" diagnostic.span.start.line)) =
        [(some "b", "## Baz")] := by decide +kernel
  have differs : (ofText "<input>" "# Feature: a\u2028b\n## Baz").lineAt 2 ≠
      rowAt "# Feature: a\u2028b\n## Baz" 2 := by
    have line : (ofText "<input>" "# Feature: a\u2028b\n## Baz").lineAt 2 = "b" := rfl
    have row : rowAt "# Feature: a\u2028b\n## Baz" 2 = "## Baz" := rfl
    rw [line, row]
    decide
  constructor
  · cases read : documentTokens "<input>" "# Feature: a\u2028b\n## Baz" with
    | error diagnostic =>
      rw [read] at values
      cases values
    | ok tokens =>
      rw [read] at values
      have title : ("Baz", (2 : Int)) ∈ tokens.map fun token => (token.value, token.line) := by
        rw [Except.ok.inj values]
        decide
      -- the title of the second row stands on line two of the text, not of the listing
      obtain ⟨token, member, same⟩ := List.mem_map.mp title
      refine ⟨tokens, rfl, token, member, ?_⟩
      rwa [(Prod.mk.inj same).2]
  · obtain ⟨diagnostic, alone, shown⟩ := List.map_eq_singleton_iff.mp quoted
    refine ⟨diagnostic, ?_, Prod.mk.inj shown⟩
    rw [alone]
    exact List.mem_cons_self

end Listing

end DocGrammar
