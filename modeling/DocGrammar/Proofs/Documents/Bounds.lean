import DocGrammar.Proofs.Documents.Cover
import DocGrammar.Proofs.Documents.Order
import DocGrammar.Proofs.Documents.Slices
import DocGrammar.Proofs.Tokens.Faults

/-! # Diagnostics stand on their lines

A section is blamed at a token of the document, at a token of the code that some of its lines are
read as, or at a line end that is put behind a line. All of them stand at a character of a line or
right behind its last one. The exception is the end of the input of a body with lines: it is put
behind the line end that is put behind the last line, one column further.

* **`Position.IsOnLine`** — a position stands on a line of a text.
* **`Token.FitsRow`**, **`fits_of_mem_content`** — the tokens of a document stand on its rows.
* **`Specs.EndsBody`** — the end of the input of a body with lines.
* **`Specs.isOnLine_of_blames`**, **`Pseudo.isOnLine_of_blames`** — what a section is blamed for.
* **`recoverable_isOnLine`** — the diagnostics that sections are dropped for. -/

namespace DocGrammar

variable {text : List Char} {file : String} {token line : Token}
  {tokens code : List Token}

/-! ## Positions on lines -/

/-- Whether a row is the line of a text that a position names. -/
def Position.HasRow (position : Position) (text row : List Char) : Prop :=
  ∃ index : Nat, (feedLines text)[index]? = some row ∧ position.line = index + 1

/-- Whether a position stands on a line of a text, at one of its characters or right behind the last
one. -/
def Position.IsOnLine (position : Position) (text : List Char) : Prop :=
  ∃ row, position.HasRow text row ∧ 1 ≤ position.column ∧ position.column ≤ row.length + 1

/-- What starts somewhere in some rows starts on one of them. -/
theorem exists_row_of_split {rows : List (List Char)} {front behind : List Char} (number : Nat)
    (split : closedRows rows = front ++ behind) (noFeed : ∀ row ∈ rows, '\n' ∉ row)
    (nonempty : behind ≠ []) :
    ∃ index row before, rows[index]? = some row ∧ before <+: row ∧
      (rowStart number).after front = ⟨(number + index : Nat), before.length + 1⟩ := by
  induction rows generalizing front number with
  | nil => exact absurd (List.append_eq_nil_iff.mp split.symm).2 nonempty
  | cons row rows ih =>
    obtain ⟨here, below⟩ := List.forall_mem_cons.mp noFeed
    rw [closedRows_cons] at split
    have onRow : ∀ before, before <+: row →
        (rowStart number).after before = ⟨(number + 0 : Nat), before.length + 1⟩ :=
      fun before part => after_rowStart number fun member => here (part.mem member)
    -- it starts on the first row or at its line feed, or further down
    rcases List.append_eq_append_iff.mp split with ⟨beyond, rfl, ahead⟩ | ⟨inside, rfl, _⟩
    · cases beyond with
      | nil =>
        rw [List.append_nil]
        exact ⟨0, row, row, rfl, List.prefix_rfl, onRow row List.prefix_rfl⟩
      | cons char beyond =>
        obtain ⟨rfl, further⟩ := List.cons_eq_cons.mp ahead
        obtain ⟨index, other, before, found, part, place⟩ := ih (number + 1) further below
        refine ⟨index + 1, other, before, found, part, ?_⟩
        rw [List.append_cons, Position.after_append, after_row number here, place]
        congr 2
        omega
    · exact ⟨0, front ++ inside, front, rfl, List.prefix_append _ _,
        onRow front (List.prefix_append _ _)⟩

/-- What starts before the end of a document starts on a line of its text. -/
theorem isOnLine_of_split {front behind : List Char} (split : documentText text = front ++ behind)
    (nonempty : behind ≠ []) : (Position.origin.after front).IsOnLine text := by
  have noFeed : ∀ row ∈ documentRows text, '\n' ∉ row := by
    intro row member inside
    obtain ⟨raw, inText, rfl⟩ := List.mem_map.mp member
    exact noFeed_of_mem_feedLines inText ((dropReturn_isPrefix raw).mem inside)
  obtain ⟨index, row, before, found, part, place⟩ :=
    exists_row_of_split 1 split noFeed nonempty
  have place : Position.origin.after front = ⟨(1 + index : Nat), before.length + 1⟩ := place
  rw [documentRows, List.getElem?_map] at found
  obtain ⟨raw, inText, rfl⟩ := Option.map_eq_some_iff.mp found
  have width := (part.trans (dropReturn_isPrefix raw)).length_le
  rw [place]
  refine ⟨raw, ⟨index, inText, ?_⟩, ?_, ?_⟩
  all_goals dsimp only; omega

/-- What starts behind some of the characters that a span covers starts on a line of the text. -/
theorem Span.Covers.isOnLine {span : Span} {start : Position} {own front : List Char}
    (covers : span.Covers start own) (segment : Segment (documentText text) start own)
    (part : front <+: own) : (start.after front).IsOnLine text := by
  obtain ⟨before, behind, split, rfl⟩ := segment
  -- the line feed that ends the document stands behind the characters
  have split' := split
  rw [documentText_eq] at split'
  obtain ⟨between, whole⟩ := exists_of_concat_feed split' covers.exists_last
  obtain ⟨rest, rfl⟩ := part
  rw [← Position.after_append]
  have ahead : documentText text = (before ++ front) ++ (rest ++ (between ++ ['\n'])) := by
    rw [documentText_eq, whole]
    simp only [List.append_assoc]
  exact isOnLine_of_split ahead (by simp)

/-! ## Tokens on rows -/

/-- How a token that is no line of code stands on a row of the given number: on some of its
characters, and a line of text on those up to the last visible one. -/
structure Token.FitsRow (token : Token) (number : Nat) (row : List Char) : Prop
    extends Token.IsInside token number row where
  /-- A line of text ends with the visible part of the row. -/
  reaches : token.kind = .line → token.span.stop.column = (trimEnd row).length
  /-- A line of text is as long as the part that it spans. -/
  width : token.kind = .line →
    token.span.start.column + token.value.toList.length = token.span.stop.column + 1

/-- Whether a token stands on a row of a text. -/
def Token.Fits (token : Token) (text : List Char) : Prop :=
  ∃ (index : Nat) (row : List Char),
    (feedLines text)[index]? = some row ∧ token.FitsRow (index + 1) row

theorem Token.Fits.isOnLine (fits : token.Fits text) : token.span.start.IsOnLine text := by
  obtain ⟨index, row, here, fits⟩ := fits
  obtain ⟨starts, _, first, filled, last⟩ := fits.toIsInside
  refine ⟨row, ⟨index, here, by omega⟩, first, by omega⟩

/-- Behind a token there is at most the end of its line. -/
theorem Token.Fits.isOnLine_behind (fits : token.Fits text) :
    (⟨token.span.stop.line, token.span.stop.column + 1⟩ : Position).IsOnLine text := by
  obtain ⟨index, row, here, fits⟩ := fits
  obtain ⟨_, stops, first, filled, last⟩ := fits.toIsInside
  refine ⟨row, ⟨index, here, ?_⟩, ?_, ?_⟩
  all_goals dsimp only; omega

section Rows

variable {number : Nat} {row : List Char} {fence : Option Nat}

/-- A row of white space becomes no token but a line of code. -/
theorem kind_of_mem_blankRow (blank : row.all isBlank = true)
    (member : token ∈ (lineTokens file number row fence).1) : token.kind = .codeLine := by
  cases fence with
  | none =>
    have shape : LineShape.ofLine (number = 1) row = .blank := if_pos blank
    rw [lineTokens, shape] at member
    exact absurd member List.not_mem_nil
  | some ticks =>
    rw [lineTokens] at member
    split at member
    · next closes =>
      have nothing : trim row = [] := by
        rw [trim, trimWhile, List.dropWhile_eq_nil_iff.mpr (List.all_eq_true.mp blank)]
        rfl
      simp [closesFence, nothing] at closes
    · rw [List.mem_singleton.mp member]
      rfl

/-- A line of text is what is left of its row when it is trimmed. -/
theorem eq_lineToken (member : token ∈ (lineTokens file number row fence).1)
    (isLine : token.kind = .line) : token = lineToken file number row := by
  cases fence with
  | none =>
    rw [lineTokens] at member
    generalize LineShape.ofLine (number = 1) row = shape at member
    cases shape with
    | blank => exact absurd member List.not_mem_nil
    | plain =>
      rcases List.mem_cons.mp member with rfl | last
      · rfl
      · rw [List.mem_singleton.mp last] at isLine
        cases isLine
    -- a link without a bracket is plain, so no token of a link is a line of text
    | link pieces =>
      have others : ∀ token ∈ linkTokens file number pieces ++ [lineEndToken file number row],
          token.kind ≠ .line := by
        unfold linkTokens
        split <;> simp [tokenAt, lineEndToken]
      exact absurd isLine (others token member)
    | _ =>
      simp only [shapeTokens, List.mem_cons, List.not_mem_nil, or_false] at member
      rcases member with rfl | rfl | rfl <;> cases isLine
  | some ticks =>
    rw [lineTokens] at member
    split at member
    · simp only [List.mem_cons, List.not_mem_nil, or_false] at member
      rcases member with rfl | rfl <;> cases isLine
    · rw [List.mem_singleton.mp member] at isLine
      cases isLine

/-- Where a line of text stands on its row. -/
theorem place_lineToken (file : String) (number : Nat) (visible : row.all isBlank = false) :
    (lineToken file number row).span.stop.column = (trimEnd row).length ∧
      (lineToken file number row).span.start.column +
          (lineToken file number row).value.toList.length =
        (lineToken file number row).span.stop.column + 1 := by
  have filled := trim_ne_nil visible
  have positive : 1 ≤ (trim row).length := List.length_pos_iff.mpr filled
  have value : (lineToken file number row).value.toList = trim row := String.toList_ofList
  have starts : (lineToken file number row).span.start.column = indentWidth row + 1 := rfl
  have stops : (lineToken file number row).span.stop.column =
      max ((indentWidth row : Int) + 1) (indentWidth row + (trim row).length) := rfl
  rw [value, starts, stops, trimEnd_eq_append_trim filled, List.length_append, ← indentWidth]
  omega

/-- A token that a document holds fits its row, unless it is a line of code. -/
theorem fitsRow_of_mem (member : token ∈ (lineTokens file number row fence).1)
    (held : token.kind.isContent = true) (other : token.kind ≠ .codeLine) :
    token.FitsRow number row := by
  have visible : row.all isBlank = false := by
    rw [← Bool.not_eq_true]
    exact fun blank => other (kind_of_mem_blankRow blank member)
  have inside : token.IsInside number row := by
    apply (RowLaid.ofLine visible fence).isInside token
    apply List.mem_filter.mpr ⟨member, ?_⟩
    cases kind : token.kind with
    | newline | endOfInput => simp [kind, TokenKind.isContent] at held
    | _ => rfl
  refine ⟨inside, fun isLine => ?_, fun isLine => ?_⟩
  · rw [eq_lineToken member isLine]
    exact (place_lineToken file number visible).1
  · rw [eq_lineToken member isLine]
    exact (place_lineToken file number visible).2

/-- A carriage return may end the row. -/
theorem Token.FitsRow.of_dropReturn (fits : token.FitsRow number (dropReturn row)) :
    token.FitsRow number row := by
  obtain ⟨blanks, cut, white⟩ := exists_dropReturn row
  have trimmed : trimEnd (dropReturn row ++ blanks) = trimEnd (dropReturn row) :=
    dropTailWhile_append_dropped white
  rw [← cut] at trimmed
  obtain ⟨⟨starts, stops, first, filled, last⟩, reaches, width⟩ := fits
  have shorter := (dropReturn_isPrefix row).length_le
  exact ⟨⟨starts, stops, first, filled, by omega⟩, trimmed ▸ reaches, width⟩

end Rows

/-- The tokens that a document holds fit the text, unless they are lines of code. -/
theorem fits_of_mem_content {text : String} (reads : documentTokens file text = .ok tokens)
    (member : token ∈ content tokens) (other : token.kind ≠ .codeLine) :
    token.Fits text.toList := by
  have rows := rows_of_documentTokens file text
  rw [reads] at rows
  obtain ⟨inTokens, held⟩ := List.mem_filter.mp member
  obtain ⟨first, last⟩ := rows.rows token inTokens
  obtain ⟨behind, inner, rfl⟩ := exists_of_documentTokens reads
  -- the end of the input is not held, so the token stems from a row
  have inRows : token ∈ behind := by
    rcases List.mem_append.mp inTokens with inRows | ends
    · exact inRows
    · rw [List.mem_singleton.mp ends] at held
      cases held
  obtain ⟨index, place⟩ : ∃ index : Nat, token.line = (1 + index : Nat) :=
    ⟨(token.line - 1).toNat, by omega⟩
  obtain ⟨row, here⟩ : ∃ row, (feedLines text.toList)[index]? = some row :=
    ⟨_, List.getElem?_eq_getElem (by omega)⟩
  obtain ⟨fence, same⟩ := exists_onLine (fun row => noFeed_of_mem_feedLines) inner here
  have onRow : token ∈ onLine (1 + index) behind := List.mem_filter.mpr ⟨inRows, by simp [place]⟩
  rw [same, Nat.add_comm 1 index] at onRow
  exact ⟨index, row, here, (fitsRow_of_mem onRow held other).of_dropReturn⟩

/-! ## Sections -/

variable {part : Section} {heading : Heading} {items : List Item} {diagnostic : Diagnostic}

/-- Whether the tokens of a section fit together and fit a text. -/
structure Section.Fits (text : List Char) (part : Section) : Prop where
  /-- The tokens of the section fit together. -/
  formed : part.Formed
  /-- They end on their rows. -/
  onRow : ∀ token ∈ part.tokens, token.OnRow
  /-- They fit the text, unless they are lines of code. -/
  fits : ∀ token ∈ part.tokens, token.kind ≠ .codeLine → token.Fits text

/-- A section at fault is at fault on a line. -/
theorem Section.Fits.isOnLine_failure (sound : part.Fits text)
    (failure : part.failure = some diagnostic) : diagnostic.span.start.IsOnLine text := by
  obtain ⟨opener, member, kind, span⟩ := sound.formed.exists_opener failure
  rw [span]
  apply (sound.fits opener member ?_).isOnLine
  rw [kind]
  exact TokenKind.noConfusion

/-! ## Sections of specs documents -/

namespace Specs

/-- Code that starts on lines of a text, and ends with the line end behind one of them. -/
structure OnLines (text : List Char) (code : List Token) : Prop where
  /-- Its tokens start on lines. -/
  starts : ∀ token ∈ code, token.span.start.IsOnLine text
  /-- Its last token stands behind the visible part of a line. -/
  ends : ∀ last ∈ code.getLast?, ∃ row, last.span.stop.HasRow text row ∧
    last.span.stop.column = (trimEnd row).length + 1

/-- No code at all ends on no line. -/
theorem onLines_nil : OnLines text [] :=
  ⟨List.forall_mem_nil _, fun last none => absurd none (Option.not_mem_none last)⟩

/-- Pieces of code are put one behind the other. -/
theorem OnLines.flatten {pieces : List (List Token)}
    (each : ∀ piece ∈ pieces, OnLines text piece) : OnLines text pieces.flatten := by
  induction pieces with
  | nil => exact onLines_nil
  | cons piece others ih =>
    obtain ⟨here, below⟩ := List.forall_mem_cons.mp each
    rw [List.flatten_cons]
    constructor
    · exact List.forall_mem_append.mpr ⟨here.starts, (ih below).starts⟩
    · intro last isLast
      rw [List.getLast?_append, Option.mem_def, Option.or_eq_some_iff] at isLast
      rcases isLast with later | ⟨_, here'⟩
      · exact (ih below).ends last later
      · exact here.ends last here'

/-- The code of a line of text stands on the line. -/
theorem onLines_lineCode (fits : line.Fits text) (isLine : line.kind = .line) (onRow : line.OnRow)
    (reads : lineCode file line = .ok code) : OnLines text code := by
  obtain ⟨tokens, lexed, whole⟩ := exists_of_bind_ok reads
  cases whole
  have read : CodeRead file line.span.start line.value.toList tokens :=
    codeRead_of_codeTokensFrom specs_keywords lexed
  obtain ⟨index, row, here, fits⟩ := fits
  obtain ⟨starts, stops, first, filled, last⟩ := fits.toIsInside
  have reach := fits.reaches isLine
  have width := fits.width isLine
  have noFeed := onRow.noFeed (.inl isLine)
  constructor
  · refine List.forall_mem_append.mpr ⟨fun token member => ?_, List.forall_mem_singleton.mpr ?_⟩
    · -- no line feed is read, so a token stands as far behind the start as text was read
      obtain ⟨front, part, place⟩ := read.exists_front token (List.mem_of_mem_filter member)
      have shorter := part.length_le
      rw [place, Position.after_of_noFeed fun inside => noFeed (part.mem inside)]
      refine ⟨row, ⟨index, here, ?_⟩, ?_, ?_⟩
      all_goals dsimp only; omega
    · refine ⟨row, ⟨index, here, starts⟩, ?_, ?_⟩
      all_goals dsimp only [Span.point]; omega
  · intro last isLast
    rw [List.getLast?_concat] at isLast
    cases isLast
    refine ⟨row, ⟨index, here, starts⟩, ?_⟩
    dsimp only [Span.point]
    omega

/-- The code of an item stands on lines. -/
theorem onLines_itemCode {item : Item} (formed : item.Formed)
    (onRow : ∀ token ∈ item.tokens, token.OnRow)
    (fits : ∀ token ∈ item.tokens, token.kind ≠ .codeLine → token.Fits text)
    (reads : itemCode file item = .ok code) : OnLines text code := by
  cases formed with
  | fenced =>
    cases reads
    exact onLines_nil
  | link => cases reads
  | text kinds =>
    obtain ⟨pieces, read, whole⟩ := exists_of_bind_ok reads
    cases whole
    apply OnLines.flatten
    intro piece member
    obtain ⟨line, inside, reads⟩ := exists_of_mem_forall₂ (forall₂_of_mapM_ok read) member
    have isLine := kinds line inside
    exact onLines_lineCode (fits line inside (by rw [isLine]; decide)) isLine (onRow line inside)
      reads

/-- The code of a body is that of some lines, with the end of the input behind it. -/
theorem exists_lines_of_bodyCode (sound : part.Fits text)
    (reads : bodyCode file heading part.items = .ok code) :
    ∃ lines last, code = lines ++ [last] ∧ OnLines text lines ∧
      last.span.start =
        let front := (lines.getLast?.map Token.span).getD heading.title.span
        ⟨front.stop.line, front.stop.column + 1⟩ := by
  obtain ⟨pieces, read, whole⟩ := exists_of_bind_ok reads
  cases whole
  refine ⟨pieces.flatten, _, rfl, .flatten fun piece member => ?_, rfl⟩
  obtain ⟨item, inside, reads⟩ := exists_of_mem_forall₂ (forall₂_of_mapM_ok read) member
  have within : ∀ token ∈ item.tokens, token ∈ part.tokens := fun token =>
    Section.mem_tokens_of_item inside
  exact onLines_itemCode (sound.formed.items item inside)
    (fun token own => sound.onRow token (within token own))
    (fun token own => sound.fits token (within token own)) reads

/-- Whether a span is that of the end of the input of the body of a section, behind some lines. -/
def EndsBody (file : String) (part : Section) (span : Span) : Prop :=
  ∃ heading lines last, part.heading = some heading ∧
    bodyCode file heading part.items = .ok (lines ++ [last]) ∧ lines ≠ [] ∧ span = last.span

/-- The end of the input of a body with lines stands two columns behind the visible part of the last
line. -/
theorem EndsBody.exists_row {span : Span} (ends : EndsBody file part span)
    (sound : part.Fits text) :
    ∃ row, span.start.HasRow text row ∧ span.start.column = (trimEnd row).length + 2 := by
  obtain ⟨heading, lines, last, _, reads, filled, rfl⟩ := ends
  obtain ⟨lines', last', split, onLines, place⟩ := exists_lines_of_bodyCode sound reads
  obtain ⟨rfl, same⟩ := List.append_inj' split rfl
  obtain rfl : last = last' := by simpa using same
  have final := List.getLast?_eq_some_getLast filled
  obtain ⟨row, ⟨index, here, line⟩, column⟩ := onLines.ends _ final
  rw [final] at place
  rw [place]
  refine ⟨row, ⟨index, here, line⟩, ?_⟩
  show _ + 1 = _
  rw [Option.map_some, Option.getD_some, column]
  omega

/-- A body that cannot be read is refused for something in a lexeme or for a link. -/
theorem kind_or_link_of_bodyCode (refused : bodyCode file heading items = .error diagnostic) :
    diagnostic.kind = .lexical ∨ ∃ link, .link link ∈ items ∧ diagnostic.span = link.span := by
  obtain ⟨item, member, refused⟩ :=
    exists_of_mapM_error (error_of_bind_ok refused fun _ => nofun)
  cases item with
  | fenced block => cases refused
  | link link =>
    cases refused
    exact .inr ⟨link, member, rfl⟩
  | text block =>
    obtain ⟨line, _, refused⟩ := exists_of_mapM_error (error_of_bind_ok refused fun _ => nofun)
    exact .inl (kind_of_codeTokensFrom (error_of_bind_ok refused fun _ => nofun))

/-- An item starts on a line. -/
theorem isOnLine_item {item : Item} (sound : part.Fits text) (member : item ∈ part.items) :
    item.span.start.IsOnLine text := by
  obtain ⟨token, inside, opens, starts⟩ := (sound.formed.items item member).exists_startsItem
  rw [starts]
  apply (sound.fits token (Section.mem_tokens_of_item member inside) ?_).isOnLine
  intro code
  simp [Token.startsItem, code] at opens

/-- A section is blamed on a line, or at the end of its body. -/
theorem isOnLine_of_blames (sound : part.Fits text) (blamed : Blames file part diagnostic)
    (recoverable : diagnostic.kind.isRecoverable = true) :
    diagnostic.span.start.IsOnLine text ∨ EndsBody file part diagnostic.span := by
  have marker : ∀ {heading : Heading}, part.heading = some heading →
      heading.marker.Fits text := by
    intro heading found
    apply sound.fits _ (Section.mem_tokens_of_heading found List.mem_cons_self)
    rw [(sound.formed.heading heading found).1]
    exact TokenKind.noConfusion
  have title : ∀ {heading : Heading}, part.heading = some heading → heading.title.Fits text := by
    intro heading found
    apply sound.fits _
      (Section.mem_tokens_of_heading found (List.mem_cons_of_mem _ List.mem_cons_self))
    rw [(sound.formed.heading heading found).2]
    exact TokenKind.noConfusion
  cases blamed with
  | fence failure => exact .inl (sound.isOnLine_failure failure)
  | item member => exact .inl (isOnLine_item sound member)
  | heading found => exact .inl (marker found).isOnLine
  | title found => exact .inl (title found).isOnLine
  | unread found refused =>
    rcases kind_or_link_of_bodyCode refused with lexical | ⟨link, member, span⟩
    · rw [lexical] at recoverable
      cases recoverable
    · rw [span]
      exact .inl (isOnLine_item sound member)
  | @token heading code token cause found read member =>
    obtain ⟨lines, last, rfl, onLines, place⟩ := exists_lines_of_bodyCode sound read
    rcases List.mem_append.mp (List.mem_of_mem_filter member) with inLines | isLast
    · exact .inl (onLines.starts token inLines)
    obtain rfl := List.mem_singleton.mp isLast
    -- without lines, the end of the input stands behind the title
    by_cases empty : lines = []
    · subst empty
      left
      show token.span.start.IsOnLine text
      rw [place]
      exact (title found).isOnLine_behind
    · exact .inr ⟨heading, lines, token, found, read, empty, rfl⟩

end Specs

/-! ## Sections of pseudo-kernel documents -/

/-- What starts in the text of a fenced block, or at its end, starts on a line. -/
theorem FencedBlock.StandsOn.isOnLine {block : FencedBlock} {start : Position}
    {own front : List Char} (stands : block.StandsOn (documentText text) start own)
    (segment : Segment (documentText text) start own) (within : front <+: block.text.toList) :
    ((⟨block.firstLine, 1⟩ : Position).after front).IsOnLine text := by
  obtain ⟨_, rest, shape, ⟨opener, gap, body, rfl, _, first, rows, _⟩⟩ := stands.holds
  have inBody : block.text.toList <+: body := by
    rw [rows, FencedBlock.text, String.toList_intercalate, List.map_map]
    exact intercalate_isPrefix _
  obtain ⟨behind, same⟩ := within.trans inBody
  rw [← first, ← Position.after_append, ← Position.after_append]
  apply stands.covers.isOnLine segment
  refine ⟨behind ++ rest, ?_⟩
  rw [shape, ← same]
  simp only [List.append_assoc]

namespace Pseudo

/-- A section that stands on a document is blamed on a line. -/
theorem isOnLine_of_blames (sound : part.Fits text) {start : Position} {own : List Char}
    (segment : Segment (documentText text) start own)
    (stands : part.StandsOn (documentText text) start own) (blamed : Blames file part diagnostic)
    (recoverable : diagnostic.kind.isRecoverable = true) : diagnostic.span.start.IsOnLine text := by
  cases blamed with
  | fence failure => exact sound.isOnLine_failure failure
  | unread _ _ refused =>
    rw [kind_of_codeTokensFrom refused] at recoverable
    cases recoverable
  | @token block code token cause unfailing member read seen =>
    obtain ⟨front, back, rfl, _, along⟩ := stands unfailing
    obtain ⟨place, own, segment', here⟩ := along.exists_segment segment.right member
    have code : CodeRead file ⟨block.firstLine, 1⟩ block.text.toList code :=
      codeRead_of_codeTokensFrom plain_keywords read
    obtain ⟨before, within, starts⟩ := code.exists_front token (List.mem_of_mem_filter seen)
    show token.span.start.IsOnLine text
    rw [starts]
    exact FencedBlock.StandsOn.isOnLine here segment' within

end Pseudo

/-! ## Diagnostics -/

/-- The sections of a document fit its text. -/
theorem fits_of_readDocument {text : String} {source : Document}
    (reads : readDocument file text = .ok source) :
    ∀ part ∈ source.sections, part.Fits text.toList := by
  obtain ⟨tokens, lexed, cuts⟩ := exists_tokens_of_readDocument reads
  have rows := rows_of_documentTokens file text
  rw [lexed] at rows
  have laid := (Document.laid_of_ofTokens rows cuts).1
  intro part member
  refine ⟨(laid part member).formed, (laid part member).onRow, fun token inside other => ?_⟩
  exact fits_of_mem_content lexed
    (Document.mem_content_of_ofTokens rows.ends cuts member inside) other

/-- A diagnostic of the sections of a document stands on a line, or at the end of the body of a
section of a specs document. -/
theorem isOnLine_of_parseSections {source : Document} (limit : Nat) (selected : Option String)
    (sound : ∀ part ∈ source.sections, part.Fits text)
    (stands : source.StandsOn (documentText text))
    (member : diagnostic ∈
      (parseSections .builtIn ⟨file, ⟨limit, 0⟩, [], []⟩ source selected).diagnostics)
    (recoverable : diagnostic.kind.isRecoverable = true) :
    diagnostic.span.start.IsOnLine text ∨
      (parseSections .builtIn ⟨file, ⟨limit, 0⟩, [], []⟩ source selected).grammar =
          some Grammar.specs.name ∧
        ∃ part ∈ source.sections, Specs.EndsBody file part diagnostic.span := by
  rw [Specs.grammar_parseSections]
  rcases selectGrammar_builtIn source selected with ⟨dialect, rfl, selects⟩ |
    ⟨fault, refuses, kind⟩
  · rw [parseSections_of_selected selects] at member
    let limits : Limits := ⟨limit, limit, Nat.le_refl limit⟩
    -- every diagnostic is blamed on a section of the document
    obtain ⟨_, failing, sublist, blamed⟩ :=
      limited_document limits file dialect source [.parsing file dialect.grammar.name]
    obtain ⟨part, inside, blames⟩ := exists_of_mem_forall₂ blamed member
    have inSource := sublist.subset inside
    cases dialect with
    | specs =>
      rcases Specs.isOnLine_of_blames (sound part inSource) blames recoverable with placed | ends
      · exact .inl placed
      · exact .inr ⟨rfl, part, inSource, ends⟩
    | pseudo =>
      obtain ⟨front, back, whole, _, along⟩ := stands.parts
      have segment : Segment (documentText text) (Position.origin.after front) back :=
        ⟨front, [], by rw [List.append_nil]; exact whole, rfl⟩
      obtain ⟨place, own, segment', here⟩ := along.exists_segment segment inSource
      exact .inl (Pseudo.isOnLine_of_blames (sound part inSource) segment' here blames recoverable)
  · rw [parseSections_of_unselected refuses] at member
    cases List.mem_singleton.mp member
    rw [kind] at recoverable
    cases recoverable

/-- Whether a parse has read a specs document, and a span is that of the end of the input of the
body of one of its sections. -/
def EndsSpecsBody (file : String) (limit : Int) (defaultGrammar : Option String) (text : String)
    (span : Span) : Prop :=
  (parseDocument .builtIn file limit defaultGrammar text).grammar = some Grammar.specs.name ∧
    ∃ source, readDocument file text = .ok source ∧
      ∃ part ∈ source.sections, Specs.EndsBody file part span

/-- A diagnostic that a section is dropped for stands on a line or at the end of a body. -/
theorem isOnLine_or_endsSpecsBody {limit : Int} {defaultGrammar : Option String} {text : String}
    (member : diagnostic ∈ (parseDocument .builtIn file limit defaultGrammar text).diagnostics)
    (recoverable : diagnostic.kind.isRecoverable = true) :
    diagnostic.span.start.IsOnLine text.toList ∨
      EndsSpecsBody file limit defaultGrammar text diagnostic.span := by
  unfold EndsSpecsBody
  by_cases small : limit < 1
  · rw [parseDocument_of_small _ _ small] at member
    cases List.mem_singleton.mp member
    -- a limit that is too small is reported at the first position, which every text has
    obtain ⟨row, others, rows⟩ := List.exists_cons_of_ne_nil (feedLines_ne_nil text.toList)
    refine .inl ⟨row, ⟨0, by rw [rows]; rfl, rfl⟩, Int.le_refl 1, ?_⟩
    show (1 : Int) ≤ _
    omega
  have positive : 1 ≤ limit := Int.not_lt.mp small
  rcases readDocument_outcome file text with ⟨source, reads, stands⟩ | ⟨fault, refused, fatal⟩
  · rw [parseDocument_of_read _ _ positive reads] at member ⊢
    rcases isOnLine_of_parseSections _ _ (fits_of_readDocument reads) stands member recoverable with
      placed | ⟨grammar, ends⟩
    · exact .inl placed
    · exact .inr ⟨grammar, source, reads, ends⟩
  · rw [parseDocument_of_refused _ _ positive refused] at member
    cases List.mem_singleton.mp member
    rw [fatal] at recoverable
    cases recoverable

/-- A diagnostic that a section is dropped for starts on its line, at one of the characters or right
behind the last one. The exception is a diagnostic at the end of the input of the body of a section
of a specs document: it starts two columns behind the visible part of the last line. -/
theorem recoverable_isOnLine (file : String) (limit : Int) (defaultGrammar : Option String)
    (text : String) (diagnostic : Diagnostic)
    (member : diagnostic ∈ (parseDocument .builtIn file limit defaultGrammar text).diagnostics)
    (recoverable : diagnostic.kind.isRecoverable = true) :
    let place := diagnostic.span.start
    let atEnd := EndsSpecsBody file limit defaultGrammar text diagnostic.span
    ∃ row, place.HasRow text.toList row ∧ 1 ≤ place.column ∧
      (¬atEnd → place.column ≤ row.length + 1) ∧
      (atEnd → place.column = (trimEnd row).length + 2) := by
  intro place atEnd
  by_cases ends : atEnd
  · have ⟨_, source, reads, part, inSource, endsBody⟩ := ends
    obtain ⟨row, hasRow, column⟩ :=
      endsBody.exists_row (fits_of_readDocument reads part inSource)
    refine ⟨row, hasRow, ?_, fun other => absurd ends other, fun _ => column⟩
    show 1 ≤ diagnostic.span.start.column
    omega
  · obtain ⟨row, hasRow, first, last⟩ :=
      (isOnLine_or_endsSpecsBody member recoverable).resolve_right ends
    exact ⟨row, hasRow, first, fun _ => last, fun inside => absurd inside ends⟩

/-- A comma in place of a type. -/
theorem recoverable_isOnLine_comma : ∃ diagnostic ∈
      (parseDocument .builtIn "s" 3 (some "specs") "## Inputs\r\nx: , \r\n").diagnostics,
    diagnostic.kind.isRecoverable = true ∧
      ¬EndsSpecsBody "s" 3 (some "specs") "## Inputs\r\nx: , \r\n" diagnostic.span ∧
      ∃ row, diagnostic.span.start.HasRow "## Inputs\r\nx: , \r\n".toList row ∧
        diagnostic.span.start.column ≤ row.length + 1 := by
  have reports :
      (parseDocument .builtIn "s" 3 (some "specs") "## Inputs\r\nx: , \r\n").diagnostics.map
        (fun diagnostic => (diagnostic.kind, diagnostic.span.start)) = [(.typing, ⟨2, 4⟩)] := by
    decide +kernel
  have rows : feedLines "## Inputs\r\nx: , \r\n".toList =
      ["## Inputs\r".toList, "x: , \r".toList, []] := by decide
  obtain ⟨diagnostic, alone, shown⟩ := List.map_eq_singleton_iff.mp reports
  obtain ⟨kind, start⟩ := Prod.mk.inj shown
  have member : diagnostic ∈ (parseDocument .builtIn "s" 3 (some "specs")
      "## Inputs\r\nx: , \r\n").diagnostics := alone ▸ List.mem_cons_self
  have recoverable : diagnostic.kind.isRecoverable = true := by rw [kind]; rfl
  obtain ⟨row, ⟨index, here, line⟩, _, within, behind⟩ :=
    recoverable_isOnLine "s" 3 (some "specs") _ diagnostic member recoverable
  rw [start] at line
  obtain rfl : index = 1 := by
    dsimp only at line
    omega
  rw [rows] at here
  cases here
  -- the exception stands behind its row, the comma inside of it
  have inside : ¬EndsSpecsBody "s" 3 (some "specs") "## Inputs\r\nx: , \r\n" diagnostic.span := by
    intro ends
    have column := behind ends
    rw [start] at column
    exact absurd column (by decide)
  exact ⟨diagnostic, member, recoverable, inside, _, ⟨1, by rw [rows]; rfl, by rw [start]; rfl⟩,
    within inside⟩

/-- A type that the body ends in is refused where no line has a character or an end. -/
theorem openType_outside :
    (parseDocument .builtIn "<input>" 100 (some "specs") "## Inputs\nfoo: \x7b").diagnostics.map
      (fun diagnostic => (diagnostic.kind, diagnostic.span.start)) = [(.typing, ⟨2, 8⟩)] ∧
    ¬(⟨2, 8⟩ : Position).IsOnLine "## Inputs\nfoo: \x7b".toList := by
  have rows : feedLines "## Inputs\nfoo: \x7b".toList =
      ["## Inputs".toList, "foo: \x7b".toList] := by
    decide
  refine ⟨by decide +kernel, ?_⟩
  rintro ⟨row, ⟨index, here, line⟩, _, last⟩
  obtain rfl : index = 1 := by
    dsimp only at line
    omega
  rw [rows] at here
  cases here
  exact absurd last (by decide)

end DocGrammar
