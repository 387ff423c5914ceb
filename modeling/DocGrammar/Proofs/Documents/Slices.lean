import DocGrammar.Proofs.Documents.Outcome

/-! # Leaves select their text

A leaf of a tree says the characters that its span selects in the text of the document. On a single
line these are the columns from its first to its last one. A string may go on over several lines;
its span selects all characters between its ends, except the carriage returns that end lines.

* **`Span.Selects`** — a span selects characters of a line of a text.
* **`Span.slice`** — the characters of a text from the first to the last position of a span.
* **`leaves_select`** — what the leaves of a tree say is what their spans select. -/

namespace DocGrammar

variable {document own chars front behind : List Char} {start place : Position} {span : Span}

/-! ## Slices of a document -/

/-- The characters of a text that starts at `place`, from the first to the last position of a
span. -/
def Span.sliceFrom (span : Span) (place : Position) : List Char → List Char
  | [] => []
  | char :: rest =>
    if span.start ≤ place ∧ place ≤ span.stop then
      char :: span.sliceFrom (place.step char) rest
    else span.sliceFrom (place.step char) rest

/-- The characters of a text from the first to the last position of a span. -/
def Span.slice (span : Span) (text : List Char) : List Char := span.sliceFrom Position.origin text

namespace Span

theorem sliceFrom_append (span : Span) (place : Position) (chars more : List Char) :
    span.sliceFrom place (chars ++ more) =
      span.sliceFrom place chars ++ span.sliceFrom (place.after chars) more := by
  induction chars generalizing place with
  | nil => rfl
  | cons char chars ih =>
    rw [List.cons_append, sliceFrom, sliceFrom, ih, Position.after_cons]
    split <;> rfl

/-- Nothing before a span is selected. -/
theorem sliceFrom_before (before : place.after chars ≤ span.start) :
    span.sliceFrom place chars = [] := by
  induction chars generalizing place with
  | nil => rfl
  | cons char chars ih =>
    have outside : ¬(span.start ≤ place ∧ place ≤ span.stop) := fun inside =>
      absurd (lt_of_lt_of_le (Position.lt_after place (List.cons_ne_nil char chars)) before)
        (not_lt_of_ge inside.1)
    rw [sliceFrom, if_neg outside]
    exact ih before

/-- Nothing behind a span is selected. -/
theorem sliceFrom_behind (behind : span.stop < place) : span.sliceFrom place chars = [] := by
  induction chars generalizing place with
  | nil => rfl
  | cons char chars ih =>
    rw [sliceFrom, if_neg fun inside => absurd inside.2 (not_le_of_gt behind)]
    exact ih (lt_of_lt_of_le behind (le_of_lt (Position.lt_step place char)))

/-- Everything up to the last position of a span is selected. -/
theorem sliceFrom_within (starts : span.start ≤ place) (stops : place.after chars ≤ span.stop) :
    span.sliceFrom place chars = chars := by
  induction chars generalizing place with
  | nil => rfl
  | cons char chars ih =>
    have inside : place ≤ span.stop := le_trans (Position.le_after place (char :: chars)) stops
    rw [sliceFrom, if_pos ⟨starts, inside⟩,
      ih (le_trans starts (le_of_lt (Position.lt_step place char))) stops]

/-- A span selects the characters that it covers. -/
theorem Covers.slice (covers : span.Covers start own) (segment : Segment document start own) :
    span.slice document = own := by
  obtain ⟨front, behind, rfl, rfl⟩ := segment
  -- up to the last character all of them stand before the end of the span
  have last : span.sliceFrom (Position.origin.after front) own = own := by
    obtain ⟨init, last, rfl, _, stops⟩ := covers.ends
    rw [sliceFrom_append, sliceFrom_within covers.starts.le stops.ge, sliceFrom]
    have starts : span.start ≤ (Position.origin.after front).after init := by
      rw [covers.starts]
      exact Position.le_after _ init
    rw [if_pos ⟨starts, stops.ge⟩]
    rfl
  rw [slice, sliceFrom_append, sliceFrom_append, sliceFrom_before covers.starts.ge, last,
    sliceFrom_behind covers.stop_lt, List.append_nil, List.nil_append]

end Span

/-! ## Slices of a line -/

/-- A span selects some characters of a single line of a text, by the columns of its ends. -/
structure Span.Selects (span : Span) (text own : List Char) : Prop where
  /-- It starts and stops on the same line. -/
  oneLine : span.start.line = span.stop.line
  /-- Lines and columns count from one. -/
  counted : 1 ≤ span.start.line ∧ 1 ≤ span.start.column
  /-- The columns of the line that it names are the characters. -/
  columns : ∃ row, (feedLines text)[(span.start.line - 1).toNat]? = some row ∧
    (row.take span.stop.column.toNat).drop (span.start.column - 1).toNat = own

/-- Characters of a single row of some rows stand on that row. -/
theorem exists_row_of_segment {rows : List (List Char)} (number : Nat)
    (split : closedRows rows = front ++ (own ++ behind)) (rowsNoFeed : ∀ row ∈ rows, '\n' ∉ row)
    (noFeed : '\n' ∉ own) (nonempty : own ≠ []) :
    ∃ index before tail, rows[index]? = some (before ++ (own ++ tail)) ∧
      (rowStart number).after front = ⟨(number + index : Nat), before.length + 1⟩ := by
  induction rows generalizing front number with
  | nil =>
    have none : front ++ (own ++ behind) = [] := split.symm
    exact absurd (List.append_eq_nil_iff.mp (List.append_eq_nil_iff.mp none).2).1 nonempty
  | cons row rows ih =>
    have line := rowsNoFeed row List.mem_cons_self
    rw [closedRows_cons] at split
    -- the characters stand behind the first row or start on it
    rcases List.append_eq_append_iff.mp split with ⟨beyond, rfl, ahead⟩ | ⟨inside, rfl, rest⟩
    · cases beyond with
      | nil =>
        -- the characters would start with a line feed
        obtain ⟨char, others, rfl⟩ := List.exists_cons_of_ne_nil nonempty
        obtain ⟨rfl, _⟩ := List.cons_eq_cons.mp ahead
        exact absurd List.mem_cons_self noFeed
      | cons char beyond =>
        obtain ⟨rfl, below⟩ := List.cons_eq_cons.mp ahead
        obtain ⟨index, before, tail, found, place⟩ :=
          ih (number + 1) below fun other member => rowsNoFeed other (List.mem_cons_of_mem _ member)
        refine ⟨index + 1, before, tail, found, ?_⟩
        rw [List.append_cons, Position.after_append, after_row number line, place]
        congr 2
        omega
    · -- what starts on the row ends on it, since there is no line feed in it
      rcases List.append_eq_append_iff.mp rest with ⟨tail, rfl, _⟩ | ⟨beyond, rfl, ahead⟩
      · refine ⟨0, front, tail, rfl, after_rowStart number fun member => line ?_⟩
        exact List.mem_append_left _ member
      · cases beyond with
        | nil =>
          refine ⟨0, front, [], by simp, after_rowStart number fun member => line ?_⟩
          exact List.mem_append_left _ member
        | cons char beyond =>
          obtain ⟨rfl, _⟩ := List.cons_eq_cons.mp ahead
          exact absurd (List.mem_append_right inside List.mem_cons_self) noFeed

/-- A span that covers characters of one line of a document selects them in the text. -/
theorem Span.Covers.selects {text : List Char} (covers : span.Covers start own)
    (segment : Segment (documentText text) start own) (noFeed : '\n' ∉ own) :
    span.Selects text own := by
  obtain ⟨front, behind, split, rfl⟩ := segment
  obtain ⟨init, last, rfl, _, stops⟩ := covers.ends
  have rowsNoFeed : ∀ row ∈ documentRows text, '\n' ∉ row := by
    intro row member inside
    obtain ⟨raw, inText, rfl⟩ := List.mem_map.mp member
    exact noFeed_of_mem_feedLines inText ((dropReturn_isPrefix raw).mem inside)
  -- a stretch of one line stands on a row, behind a part of it
  obtain ⟨index, before, tail, found, place⟩ :=
    exists_row_of_segment 1 split rowsNoFeed noFeed (by simp)
  have place : Position.origin.after front = ⟨(1 + index : Nat), before.length + 1⟩ := place
  have inner : '\n' ∉ init := fun member => noFeed (List.mem_append_left _ member)
  have starts := covers.starts
  rw [place] at starts stops
  rw [Position.after_of_noFeed inner] at stops
  rw [documentRows, List.getElem?_map] at found
  obtain ⟨raw, inText, cut⟩ := Option.map_eq_some_iff.mp found
  obtain ⟨more, whole⟩ := dropReturn_isPrefix raw
  refine ⟨by rw [starts, stops], by rw [starts]; constructor <;> dsimp only <;> omega, raw, ?_, ?_⟩
  · rw [starts]
    have same : ((((1 + index : Nat) : Int)) - 1).toNat = index := by omega
    rw [same, inText]
  · have taken : span.stop.column.toNat = (before ++ (init ++ [last])).length := by
      rw [stops]
      simp only [List.length_append, List.length_singleton]
      omega
    have dropped : (span.start.column - 1).toNat = before.length := by
      rw [starts]
      dsimp only
      omega
    have shape : raw = (before ++ (init ++ [last])) ++ (tail ++ more) := by
      rw [← whole, cut]
      simp only [List.append_assoc]
    rw [taken, dropped, shape, List.take_left, List.drop_left]

/-! ## Leaves -/

/-- A text without the carriage returns that end its lines. -/
def withoutReturns (text : List Char) : List Char := ['\n'].intercalate (documentRows text)

theorem documentText_eq (text : List Char) : documentText text = withoutReturns text ++ ['\n'] := by
  refine closedRows_eq fun empty => ?_
  exact feedLines_ne_nil text (List.map_eq_nil_iff.mp empty)

/-- A span that covers characters of a document selects them, across lines. -/
theorem Span.Covers.slice_withoutReturns {text : List Char} (covers : span.Covers start own)
    (segment : Segment (documentText text) start own) : span.slice (withoutReturns text) = own := by
  obtain ⟨front, behind, split, place⟩ := segment
  rw [documentText_eq] at split
  obtain ⟨between, whole⟩ := exists_of_concat_feed split covers.exists_last
  exact covers.slice ⟨front, between, whole, place⟩

/-- What a leaf of a kind says is what its span selects in a text. -/
structure LeafSelects (text : List Char) (kind : NodeKind) (value : String) (span : Span) :
    Prop where
  /-- Most leaves say what the span selects on its line. -/
  plain : kind.isPlain = true → span.Selects text value.toList
  /-- A number says it without white space. -/
  number : kind = .number → ∃ own, span.Selects text own ∧ own.filter (!isBlank ·) = value.toList
  /-- A pattern says what stands between slashes. -/
  pattern : kind = .pattern → span.Selects text ('/' :: (value.toList ++ ['/']))
  /-- A string says what the selected characters are read as, without the carriage returns that end
  lines. -/
  string : kind = .stringLiteral → ∀ keywords file start,
    (codeTokens keywords file start (String.ofList (span.slice (withoutReturns text)))).map
        (List.map fun token => (token.kind, token.value)) =
      .ok [(.stringLit, value), (.endOfInput, "")]

/-- What quotes a document selects its text. -/
theorem leafSelects_of_quoted {kind : NodeKind} {value : String} {text : List Char}
    (quoted : Quoted kind value.toList own) (covers : span.Covers start own)
    (segment : Segment (documentText text) start own) : LeafSelects text kind value span := by
  generalize content : value.toList = chars at quoted
  cases quoted with
  | plain isPlain noFeed =>
    have selects := covers.selects segment noFeed
    refine ⟨fun _ => content ▸ selects, ?_, ?_, ?_⟩
    · rintro rfl
      cases isPlain
    · rintro rfl
      cases isPlain
    · rintro rfl
      cases isPlain
  -- only what quotes its own characters holds no returns, the rest is read again
  | number noFeed =>
    exact ⟨nofun, fun _ => ⟨own, covers.selects segment noFeed, content.symm⟩, nofun, nofun⟩
  | pattern noFeed =>
    refine ⟨nofun, nofun, fun _ => ?_, nofun⟩
    rw [content]
    exact covers.selects segment (by simp [noFeed])
  | string spelled =>
    refine ⟨nofun, nofun, nofun, fun _ keywords file place => ?_⟩
    -- a string may hold line feeds, with returns in front that the lexer never sees
    rw [covers.slice_withoutReturns segment, codeTokens_of_spelled spelled, ← content,
      String.ofList_toList]

/-- In every tree that a parse yields, the leaves say what their spans select in the text. -/
theorem leaves_select (file : String) (limit : Int) (defaultGrammar : Option String) (text : String)
    (tree : Node)
    (yields : (parseDocument .builtIn file limit defaultGrammar text).tree = some tree) :
    ∀ node ∈ tree.walk, node.kind.isQuoted = true →
      ∃ value span, node.text = some value ∧ node.span = some span ∧
        LeafSelects text.toList node.kind value span := by
  obtain ⟨source, nodes, dialect, rfl, _, stands, holds⟩ := exists_of_tree yields
  intro node member quoted
  obtain ⟨value, span, own, texts, spans, covers, segment, quote⟩ :=
    (stands.sound_root holds.along node member).2 quoted
  exact ⟨value, span, texts, spans, leafSelects_of_quoted quote covers segment⟩

/-- A feature, whose name is selected by its span. -/
theorem leaves_select_feature : ∃ tree,
    (parseDocument .builtIn "s" 8 (some "specs") "# Feature: a b").tree = some tree ∧
      ∀ node ∈ tree.walk, node.kind.isQuoted = true →
        ∃ value span, node.text = some value ∧ node.span = some span ∧
          LeafSelects "# Feature: a b".toList node.kind value span := by
  have found : (parseDocument .builtIn "s" 8 (some "specs")
      "# Feature: a b").tree.isSome = true := by cbv
  obtain ⟨tree, yields⟩ := Option.isSome_iff_exists.mp found
  exact ⟨tree, yields, leaves_select _ _ _ _ tree yields⟩

/-- With the carriage returns that end its lines, the characters of a string are read as another
one. -/
theorem string_slice_with_returns : ∃ tree node span,
    (parseDocument .builtIn "<input>" 100 (some "pseudo-kernel")
      "```pseudo\r\n\"\"\"a\r\nb\"\"\"\r\n```").tree = some tree ∧
    node ∈ tree.walk ∧ node.kind = .stringLiteral ∧ node.text = some "a\nb" ∧
    node.span = some span ∧
    (codeTokens .pseudo "<input>" .origin (String.ofList (span.slice
        "```pseudo\r\n\"\"\"a\r\nb\"\"\"\r\n```".toList))).map
        (List.map fun token => (token.kind, token.value)) ≠
      .ok [(.stringLit, "a\nb"), (.endOfInput, "")] := by
  have strings : (parseDocument .builtIn "<input>" 100 (some "pseudo-kernel")
      "```pseudo\r\n\"\"\"a\r\nb\"\"\"\r\n```").tree.map
      (fun tree => (tree.walk.filter (·.kind = .stringLiteral)).map
        fun node => (node.kind, node.text, node.span)) =
      some [(.stringLiteral, some "a\nb", some ⟨"<input>", ⟨2, 1⟩, ⟨3, 4⟩⟩)] := by cbv
  have reads : (codeTokens .pseudo "<input>" .origin (String.ofList
      ((⟨"<input>", ⟨2, 1⟩, ⟨3, 4⟩⟩ : Span).slice
        "```pseudo\r\n\"\"\"a\r\nb\"\"\"\r\n```".toList))).map
        (List.map fun token => (token.kind, token.value)) =
      .ok [(.stringLit, "a\r\nb"), (.endOfInput, "")] := by cbv
  obtain ⟨tree, yields, strings⟩ := Option.map_eq_some_iff.mp strings
  obtain ⟨node, alone, shown⟩ := List.map_eq_singleton_iff.mp strings
  obtain ⟨kind, value, span⟩ : node.kind = .stringLiteral ∧ node.text = some "a\nb" ∧
      node.span = some ⟨"<input>", ⟨2, 1⟩, ⟨3, 4⟩⟩ := by simpa using shown
  have member : node ∈ tree.walk.filter (·.kind = .stringLiteral) := by
    rw [alone]
    exact List.mem_cons_self
  refine ⟨tree, node, _, yields, (List.mem_filter.mp member).1, kind, value, span, ?_⟩
  rw [reads]
  simp

end DocGrammar
