import DocGrammar.Proofs.Documents.Sections
import DocGrammar.Proofs.Documents.Shapes
import DocGrammar.Proofs.Source.Positions
import DocGrammar.Proofs.Tokens.Spelled

/-! # Where headings and items stand

The tokens of a row stand on its pieces. Row by row, the headings and items that a document is cut
into come to stand on the text, one behind the other, and no token is ever misplaced.

* **`Token.Copies`** — a token says the characters that it spans.
* **`Section.StandsOn`** — the heading and the items of a section stand along a text.
* **`Region.StandsOn`** — what is read so far stands along the text read so far.
* **`exists_row_step`** — the tokens of a row keep it standing.
* **`exists_rows_run`** — so do the tokens of all rows. -/

namespace DocGrammar

/-! ## Rows and their ends -/

/-- Some rows with a line feed behind each of them. -/
def closedRows (rows : List (List Char)) : List Char := rows.flatMap (· ++ ['\n'])

theorem closedRows_cons (row : List Char) (rows : List (List Char)) :
    closedRows (row :: rows) = row ++ '\n' :: closedRows rows := by
  rw [closedRows, List.flatMap_cons, List.append_assoc]
  rfl

theorem closedRows_append (rows more : List (List Char)) :
    closedRows (rows ++ more) = closedRows rows ++ closedRows more := List.flatMap_append

/-- Rows with line feeds between them have one more behind them when they are closed. -/
theorem closedRows_eq {rows : List (List Char)} (nonempty : rows ≠ []) :
    closedRows rows = ['\n'].intercalate rows ++ ['\n'] := by
  induction rows with
  | nil => exact absurd rfl nonempty
  | cons row others ih =>
    cases others with
    | nil => simp [closedRows, List.intercalate]
    | cons next more =>
      rw [closedRows_cons, ih (List.cons_ne_nil _ _), List.intercalate_cons_cons]
      simp only [List.append_assoc, List.cons_append, List.nil_append]

/-- Closed rows start with the rows with line feeds between them. -/
theorem intercalate_isPrefix (rows : List (List Char)) :
    ['\n'].intercalate rows <+: closedRows rows := by
  cases rows with
  | nil => exact List.prefix_rfl
  | cons row others =>
    rw [closedRows_eq (List.cons_ne_nil _ _)]
    exact List.prefix_append _ _

/-! ## Headings, items and sections on a text -/

variable {document own chars more : List Char} {start : Position}

/-- A token says the characters that it spans, which stand on one line of a document. -/
structure Token.Copies (document : List Char) (start : Position) (own : List Char)
    (token : Token) : Prop where
  /-- It spans them. -/
  covers : token.span.Covers start own
  /-- It says them. -/
  value : token.value.toList = own
  /-- They stand on one line. -/
  noFeed : '\n' ∉ own
  /-- The document holds them. -/
  segment : Segment document start own

/-- A heading spans some characters, and its title stands at their end. -/
structure Heading.StandsOn (document : List Char) (start : Position) (own : List Char)
    (heading : Heading) : Prop where
  /-- It spans the characters. -/
  covers : heading.span.Covers start own
  /-- They end with the title. -/
  title : ∃ gap rest, own = gap ++ rest ∧ heading.title.Copies document (start.after gap) rest

/-- A text block spans some characters, and its lines stand along them. -/
structure TextBlock.StandsOn (document : List Char) (start : Position) (own : List Char)
    (block : TextBlock) : Prop where
  /-- It spans the characters. -/
  covers : block.span.Covers start own
  /-- Its lines stand along them. -/
  lines : Along (Token.Copies document) start own block.lines

/-- A link spans some characters, which hold its target and its description. -/
structure ContextLink.StandsOn (document : List Char) (start : Position) (own : List Char)
    (link : ContextLink) : Prop where
  /-- It spans the characters. -/
  covers : link.span.Covers start own
  /-- They hold the target and, behind it, the description. -/
  parts : ∃ front target rest, own = front ++ (target ++ rest) ∧
    link.target.span.Covers (start.after front) target ∧
    Along (Token.Copies document) ((start.after front).after target) rest link.description.toList

/-- A line of a fenced block stands on its characters unless it is blank. -/
def CodeLineOn (document : List Char) (start : Position) (own : List Char) (line : Token) : Prop :=
  isBlankText line.value = false → line.Copies document start own

/-- Some characters start with the opening fence of a block and end with its lines. -/
structure FencedBlock.OpensOn (document : List Char) (start : Position) (own : List Char)
    (block : FencedBlock) : Prop where
  /-- They start with the fence, on a row of its own before the first line. -/
  opens : ∃ opener gap body, own = opener ++ (gap ++ body) ∧ block.opener.span.Covers start opener ∧
    (start.after opener).after gap = ⟨block.firstLine, 1⟩ ∧
    body = closedRows (block.lines.map (·.value.toList)) ∧
    Along (CodeLineOn document) ⟨block.firstLine, 1⟩ body block.lines

/-- A fenced block spans some characters, which hold its lines. -/
structure FencedBlock.StandsOn (document : List Char) (start : Position) (own : List Char)
    (block : FencedBlock) : Prop where
  /-- It spans the characters. -/
  covers : block.span.Covers start own
  /-- They hold its lines. -/
  holds : ∃ front rest, own = front ++ rest ∧ block.OpensOn document start front

/-- An item stands on some characters. -/
def Item.StandsOn (document : List Char) (start : Position) (own : List Char) : Item → Prop
  | .text block => block.StandsOn document start own
  | .fenced block => block.StandsOn document start own
  | .link context => context.StandsOn document start own

/-- The heading and the items of a section that is not at fault stand along some characters. -/
def Section.StandsOn (document : List Char) (start : Position) (own : List Char)
    (part : Section) : Prop :=
  part.failure = none → ∃ front back, own = front ++ back ∧
    Along (Heading.StandsOn document) start front part.heading.toList ∧
    Along (Item.StandsOn document) (start.after front) back part.items

/-! ## Drafts and regions on a text -/

/-- The sections of a draft stand along some characters, and the section being read stands at
their end. -/
def Draft.StandsOn (document : List Char) (start : Position) (chars : List Char) (draft : Draft) :
    Prop :=
  ∃ front own, chars = front ++ own ∧ Along (Section.StandsOn document) start front draft.complete ∧
    Section.StandsOn document (start.after front) own ⟨draft.heading, draft.items, none⟩

/-- Between two rows, a region is prose or a fence whose lines stand at the end of the characters
that the draft stands along. -/
def Region.StandsOn (document : List Char) (start : Position) (chars : List Char) (draft : Draft) :
    Region → Prop
  | .prose => draft.StandsOn document start chars
  | .fence opener lines => ∃ front own, chars = front ++ own ∧ draft.StandsOn document start front ∧
    FencedBlock.OpensOn document (start.after front) own ⟨opener, lines, none⟩
  | _ => False

/-- One more line joins a text block. -/
theorem TextBlock.StandsOn.push {block : TextBlock} {line : Token} {gap ownLine : List Char}
    (stands : block.StandsOn document start own)
    (here : line.Copies document ((start.after own).after gap) ownLine) :
    (block.push line).StandsOn document start (own ++ (gap ++ ownLine)) := by
  refine ⟨?_, ?_⟩
  · rw [TextBlock.span, TextBlock.last_push, ← List.append_assoc]
    exact stands.covers.through here.covers (Position.after_append start own gap)
  · rw [TextBlock.lines_push]
    exact stands.lines.append (.skip (.single here))

namespace Draft.StandsOn

variable {draft : Draft}

theorem empty : Draft.empty.StandsOn document start [] :=
  ⟨[], [], rfl, .done, fun _ => ⟨[], [], rfl, .done, .done⟩⟩

/-- Characters behind a draft are passed over. -/
theorem extend (stands : draft.StandsOn document start chars) (more : List Char) :
    draft.StandsOn document start (chars ++ more) := by
  obtain ⟨front, own, rfl, complete, here⟩ := stands
  refine ⟨front, own ++ more, by rw [List.append_assoc], complete, fun sound => ?_⟩
  obtain ⟨heading, items, rfl, headings, along⟩ := here sound
  exact ⟨heading, items ++ more, by rw [List.append_assoc], headings, along.extend more⟩

/-- An item behind a draft joins the section being read. -/
theorem addItem (stands : draft.StandsOn document start chars) {item : Item}
    (here : item.StandsOn document (start.after chars) own) :
    (draft.addItem item).StandsOn document start (chars ++ own) := by
  obtain ⟨front, inner, rfl, complete, stands⟩ := stands
  refine ⟨front, inner ++ own, by rw [List.append_assoc], complete, fun sound => ?_⟩
  obtain ⟨heading, items, rfl, headings, along⟩ := stands sound
  refine ⟨heading, items ++ own, by rw [List.append_assoc], headings, along.append (.single ?_)⟩
  simpa only [Position.after_append] using here

/-- A heading behind a draft opens a section. -/
theorem openSection (stands : draft.StandsOn document start chars) {heading : Heading}
    (here : heading.StandsOn document (start.after chars) own) :
    (draft.openSection heading).StandsOn document start (chars ++ own) := by
  obtain ⟨front, inner, rfl, complete, stands⟩ := stands
  refine ⟨front ++ inner, own, rfl, complete.append (.single stands), fun _ => ?_⟩
  exact ⟨own, [], (List.append_nil own).symm, .single here, .done⟩

/-- A line of text behind a draft joins the text block before it, or starts one. -/
theorem addLine (stands : draft.StandsOn document start chars) {line : Token} {gap : List Char}
    (here : line.Copies document ((start.after chars).after gap) own) :
    (draft.addLine line).StandsOn document start (chars ++ (gap ++ own)) := by
  have apart :
      (draft.addItem (.text ⟨line, []⟩)).StandsOn document start (chars ++ (gap ++ own)) := by
    rw [← List.append_assoc]
    refine (stands.extend gap).addItem ?_
    rw [Position.after_append]
    exact ⟨here.covers, .single here⟩
  unfold Draft.addLine
  split
  · next block isLast =>
    split
    · -- the line joins the block, which is the last item of the section being read
      obtain ⟨front, inner, rfl, complete, stands⟩ := stands
      refine ⟨front, inner ++ (gap ++ own), by rw [List.append_assoc], complete, fun sound => ?_⟩
      obtain ⟨heading, items, rfl, headings, along⟩ := stands sound
      refine ⟨heading, items ++ (gap ++ own), by rw [List.append_assoc], headings, ?_⟩
      obtain ⟨init, shape⟩ := List.getLast?_eq_some_iff.mp isLast
      show Along _ _ _ (draft.items.dropLast ++ [_])
      rw [shape] at along ⊢
      rw [List.dropLast_concat]
      obtain ⟨before, back, rfl, standInit, standLast⟩ := along.exists_split
      obtain ⟨between, ownBlock, rest, rfl, there, _⟩ := standLast.exists_head
      -- what stands between the block and the line becomes a gap in the block
      have pushed : (Item.text (block.push line)).StandsOn document
          ((((start.after front).after heading).after before).after between)
          (ownBlock ++ ((rest ++ gap) ++ own)) := by
        refine TextBlock.StandsOn.push there ?_
        simpa only [Position.after_append] using here
      have joined := standInit.append (.skip (.single pushed))
      simpa only [List.append_assoc] using joined
    · exact apart
  · exact apart

end Draft.StandsOn

/-! ## Tokens of a row -/

/-- The position of the first character of a row. -/
def rowStart (number : Nat) : Position := ⟨number, 1⟩

variable {file : String} {number : Nat} {row before behind : List Char} {draft : Draft}

theorem after_rowStart (number : Nat) (noFeed : '\n' ∉ row) :
    (rowStart number).after row = ⟨number, row.length + 1⟩ := by
  rw [Position.after_of_noFeed noFeed, rowStart]
  simp only [Position.mk.injEq, true_and]
  omega

/-- Behind the line feed of a row, the next one starts. -/
theorem after_row (number : Nat) (noFeed : '\n' ∉ row) :
    (rowStart number).after (row ++ ['\n']) = rowStart (number + 1) := by
  rw [Position.after_append, after_rowStart number noFeed]
  simp only [Position.after_cons, Position.after_nil, Position.step, if_pos, rowStart]
  rfl

/-- A token at an offset of a row spans its characters there. -/
theorem covers_tokenAt (file : String) (number : Nat) (kind : TokenKind) (value : List Char)
    (cut : row = before ++ (own ++ behind)) (noFeed : '\n' ∉ row) (nonempty : own ≠ []) :
    (tokenAt file number kind value before.length own.length).span.Covers
      ((rowStart number).after before) own := by
  rw [cut, ← List.append_assoc] at noFeed
  have covers := Span.Covers.piece file (rowStart number)
    (fun member => noFeed (List.mem_append_left behind member)) nonempty
  have positive : 1 ≤ own.length := List.length_pos_iff.mpr nonempty
  have same : (tokenAt file number kind value before.length own.length).span =
      ⟨file, ⟨number, 1 + before.length⟩, ⟨number, 1 + before.length + own.length - 1⟩⟩ := by
    simp only [tokenAt, Span.mk.injEq, Position.mk.injEq, true_and]
    omega
  rw [same]
  exact covers

/-- A token that carries the characters at an offset of a row stands on them. -/
theorem copies_tokenAt (file : String) (kind : TokenKind)
    (cut : row = before ++ (own ++ behind)) (segment : Segment document (rowStart number) row)
    (noFeed : '\n' ∉ row) (nonempty : own ≠ []) :
    (tokenAt file number kind own before.length own.length).Copies document
      ((rowStart number).after before) own := by
  refine ⟨covers_tokenAt file number kind own cut noFeed nonempty, String.toList_ofList,
    fun member => noFeed ?_, ?_⟩
  · rw [cut]
    exact List.mem_append_right _ (List.mem_append_left _ member)
  · rw [cut] at segment
    exact segment.part

/-! ## What rows become -/

/-- The heading that the pieces of a row become. -/
def HeadingPieces.heading (pieces : HeadingPieces) (file : String) (number : Nat)
    (row : List Char) : Heading :=
  ⟨tokenAt file number .headingMarker (row.take pieces.level) 0 pieces.level,
    tokenAt file number .text pieces.title (pieces.level + pieces.gap) pieces.title.length⟩

/-- The line of text that a row becomes. -/
def lineToken (file : String) (number : Nat) (row : List Char) : Token :=
  tokenAt file number .line (trim row) (indentWidth row) (trim row).length

/-- The link that the pieces of a row become. -/
def LinkPieces.context (pieces : LinkPieces) (file : String) (number : Nat) : ContextLink :=
  ⟨tokenAt file number .listBullet ['-'] pieces.indent 1,
    tokenAt file number .text (trim pieces.target) (pieces.openOffset + 1) pieces.target.length,
    if pieces.description.isEmpty then none
    else some (tokenAt file number .text pieces.description pieces.descriptionOffset
      pieces.description.length)⟩

/-- The fence that the pieces of a row become. -/
def FencePieces.opener (pieces : FencePieces) (file : String) (number : Nat) (row : List Char) :
    Token :=
  tokenAt file number .fenceMarker pieces.info pieces.indent
    ((trimEnd row).length - pieces.indent)

/-- The fence that a closing row becomes. -/
def closingToken (file : String) (number : Nat) (row : List Char) : Token :=
  tokenAt file number .fenceMarker [] (indentWidth row) (trim row).length

namespace Draft

/-- The tokens of a heading open a section. -/
theorem becomes_headingTokens (draft : Draft) (pieces : HeadingPieces) :
    draft.Becomes (shapeTokens file number row (.heading pieces))
      (draft.openSection (pieces.heading file number row)) := by
  intro rest
  show draft.sections .prose (_ :: _ :: lineEndToken file number row :: rest) = _
  rw [sections_cons TokenKind.noConfusion rfl, sections_cons TokenKind.noConfusion rfl,
    sections_cons TokenKind.noConfusion rfl]
  rfl

/-- The tokens of a comment change nothing. -/
theorem becomes_commentTokens (draft : Draft) :
    draft.Becomes (shapeTokens file number row .comment) draft := by
  intro rest
  show draft.sections .prose (_ :: lineEndToken file number row :: rest) = _
  rw [sections_cons TokenKind.noConfusion rfl, sections_cons TokenKind.noConfusion rfl]

/-- The tokens of a line of text add the line. -/
theorem becomes_lineTokens (draft : Draft) :
    draft.Becomes (shapeTokens file number row .plain)
      (draft.addLine (lineToken file number row)) := by
  intro rest
  show draft.sections .prose (_ :: lineEndToken file number row :: rest) = _
  rw [sections_cons TokenKind.noConfusion rfl, sections_cons TokenKind.noConfusion rfl]
  rfl

/-- The tokens of a link add the link. -/
theorem becomes_linkTokens (draft : Draft) (pieces : LinkPieces) :
    draft.Becomes (shapeTokens file number row (.link pieces))
      (draft.addItem (.link (pieces.context file number))) := by
  intro rest
  rw [shapeTokens, linkTokens, LinkPieces.context]
  by_cases empty : pieces.description.isEmpty = true
  · -- the end of the row shows that there is no description
    rw [if_pos empty, if_pos empty, List.append_nil]
    show draft.sections .prose (_ :: _ :: _ :: _ :: lineEndToken file number row :: rest) = _
    rw [sections_cons TokenKind.noConfusion rfl, sections_cons TokenKind.noConfusion rfl,
      sections_cons TokenKind.noConfusion rfl, sections_cons TokenKind.noConfusion rfl,
      sections_cons TokenKind.noConfusion rfl]
  · rw [if_neg empty, if_neg empty]
    show draft.sections .prose (_ :: _ :: _ :: _ :: _ :: lineEndToken file number row :: rest) = _
    rw [sections_cons TokenKind.noConfusion rfl, sections_cons TokenKind.noConfusion rfl,
      sections_cons TokenKind.noConfusion rfl, sections_cons TokenKind.noConfusion rfl,
      sections_cons TokenKind.noConfusion rfl, sections_cons TokenKind.noConfusion rfl]

variable {opener : Token} {lines : List Token}

/-- The tokens of an opening fence open a block. -/
theorem sections_openingTokens (draft : Draft) (pieces : FencePieces) (rest : List Token) :
    draft.sections .prose (shapeTokens file number row (.fence pieces) ++ rest) =
      draft.sections (.fence (pieces.opener file number row) []) rest := by
  show draft.sections .prose (_ :: lineEndToken file number row :: rest) = _
  rw [sections_cons TokenKind.noConfusion rfl, sections_cons TokenKind.noConfusion rfl]
  rfl

/-- The tokens of a closing fence add the block. -/
theorem sections_closingTokens (draft : Draft) (rest : List Token) :
    draft.sections (.fence opener lines)
        ([closingToken file number row, lineEndToken file number row] ++ rest) =
      (draft.addItem (.fenced ⟨opener, lines, some (closingToken file number row)⟩)).sections
        .prose rest := by
  show draft.sections (.fence opener lines) (_ :: lineEndToken file number row :: rest) = _
  rw [sections_cons TokenKind.noConfusion rfl, sections_cons TokenKind.noConfusion rfl]

/-- The token of a row of code adds the row to the block. -/
theorem sections_codeTokens (draft : Draft) (rest : List Token) :
    draft.sections (.fence opener lines)
        ([tokenAt file number .codeLine row 0 row.length] ++ rest) =
      draft.sections (.fence opener
        (lines ++ [tokenAt file number .codeLine row 0 row.length])) rest :=
  sections_cons TokenKind.noConfusion rfl

end Draft

/-! ## What rows become stands on them -/

section

variable (segment : Segment document (rowStart number) row) (noFeed : '\n' ∉ row)

include noFeed

/-- The pieces of an opening fence become a fence on the row. -/
theorem FencePieces.covers (file : String) (number : Nat) {pieces : FencePieces}
    (shaped : fencePieces? row = some pieces) :
    ∃ before own tail, row = before ++ (own ++ tail) ∧
      (pieces.opener file number row).span.Covers ((rowStart number).after before) own := by
  obtain ⟨indent, own, tail, cut, width, nonempty, length, _⟩ := exists_of_fencePieces? shaped
  have covers := covers_tokenAt file number .fenceMarker pieces.info cut noFeed nonempty
  rw [width, length] at covers
  exact ⟨indent, own, tail, cut, covers⟩

/-- A row that closes a fenced block becomes a fence on it. -/
theorem closingToken_covers (file : String) (number : Nat) {ticks : Nat}
    (closes : closesFence ticks row = true) :
    ∃ before own tail, row = before ++ (own ++ tail) ∧
      (closingToken file number row).span.Covers ((rowStart number).after before) own := by
  simp only [closesFence, Bool.and_eq_true, Bool.not_eq_true', List.isEmpty_eq_false_iff] at closes
  obtain ⟨tail, _, cut⟩ := exists_trim row
  exact ⟨row.takeWhile isBlank, trim row, tail, cut,
    covers_tokenAt file number .fenceMarker [] cut noFeed closes.1.2⟩

include segment

/-- The pieces of a heading become a heading on the row. -/
theorem HeadingPieces.standsOn (file : String) {pieces : HeadingPieces}
    (shaped : headingPieces? row = some pieces) :
    ∃ own tail, row = own ++ tail ∧
      (pieces.heading file number row).StandsOn document (rowStart number) own := by
  obtain ⟨marker, gap, tail, cut, level, width, positive, nonempty, _⟩ :=
    exists_of_headingPieces? shaped
  have signs : marker ≠ [] := by
    rintro rfl
    rw [← level] at positive
    exact absurd positive (by decide)
  -- the hash signs start the row, and the title stands behind them and the gap
  have marks := covers_tokenAt file number .headingMarker (row.take pieces.level)
    (show row = [] ++ (marker ++ _) from cut) noFeed signs
  have cut' : row = (marker ++ gap) ++ (pieces.title ++ tail) := by rw [cut, List.append_assoc]
  have title := copies_tokenAt file .text cut' segment noFeed nonempty
  rw [List.length_append, level, width] at title
  rw [level] at marks
  refine ⟨marker ++ gap ++ pieces.title, tail, by rw [cut]; simp only [List.append_assoc], ?_⟩
  exact ⟨marks.through title.covers rfl, marker ++ gap, pieces.title, rfl, title⟩

/-- A row that is not blank becomes a line of text on it. -/
theorem lineToken_copies (file : String) (visible : row.all isBlank = false) :
    ∃ before own tail, row = before ++ (own ++ tail) ∧
      (lineToken file number row).Copies document ((rowStart number).after before) own := by
  obtain ⟨tail, _, cut⟩ := exists_trim row
  exact ⟨row.takeWhile isBlank, trim row, tail, cut,
    copies_tokenAt file .line cut segment noFeed (trim_ne_nil visible)⟩

/-- The pieces of a link become a link on the row. -/
theorem LinkPieces.standsOn (file : String) {pieces : LinkPieces}
    (shaped : linkPieces? row = some pieces) :
    ∃ before own tail, row = before ++ (own ++ tail) ∧
      (pieces.context file number).StandsOn document ((rowStart number).after before) own := by
  obtain ⟨indent, gap, cut, width, width', nonempty, _⟩ := exists_of_linkPieces? shaped
  have bullet := covers_tokenAt file number .listBullet ['-']
    (show row = indent ++ (['-'] ++ _) from cut) noFeed (List.cons_ne_nil _ _)
  rw [width] at bullet
  -- the target stands behind the opening bracket
  have cutTarget : row =
      (indent ++ '-' :: (gap ++ ['['])) ++ (pieces.target ++ ']' :: pieces.tail) := by
    rw [cut]
    simp
  have target := covers_tokenAt file number .text (trim pieces.target) cutTarget noFeed nonempty
  have opening : (indent ++ '-' :: (gap ++ ['['])).length = pieces.openOffset + 1 := by
    simp only [List.length_append, List.length_cons, List.length_nil, openOffset, width, width']
    omega
  rw [opening] at target
  have linked := bullet.through target (Position.after_append _ _ _).symm
  by_cases empty : pieces.description.isEmpty = true
  · refine ⟨indent, '-' :: (gap ++ ['[']) ++ pieces.target, ']' :: pieces.tail, ?_, ?_, ?_⟩
    · rw [cutTarget]
      simp
    · rw [ContextLink.span, context, if_pos empty]
      exact linked
    · refine ⟨'-' :: (gap ++ ['[']), pieces.target, [], by simp, ?_, ?_⟩
      · rw [← Position.after_append]
        exact target
      · rw [context, if_pos empty]
        exact .done
  · -- and the description somewhere behind the closing one
    obtain ⟨between, behind, found, offset⟩ := exists_offsetOf? pieces.description_isInfix
    have nonempty' : pieces.description ≠ [] := fun none => empty (List.isEmpty_iff.mpr none)
    have cutDescription : row =
        (indent ++ '-' :: (gap ++ '[' :: (pieces.target ++ ']' :: between))) ++
          (pieces.description ++ behind) := by
      rw [cut, found]
      simp
    have description := copies_tokenAt file .text cutDescription segment noFeed nonempty'
    have place : (indent ++ '-' :: (gap ++ '[' :: (pieces.target ++ ']' :: between))).length =
        pieces.descriptionOffset := by
      simp only [descriptionOffset, closeOffset, openOffset, offset, Option.getD_some,
        List.length_append, List.length_cons, width, width']
      omega
    rw [place] at description
    have described := bullet.through description.covers (Position.after_append _ _ _).symm
    refine ⟨indent, '-' :: (gap ++ '[' :: (pieces.target ++ ']' :: between)) ++ pieces.description,
      behind, ?_, ?_, ?_⟩
    · rw [cutDescription]
      simp only [List.append_assoc]
    · rw [ContextLink.span, context, if_neg empty]
      exact described
    · refine ⟨'-' :: (gap ++ ['[']), pieces.target, ']' :: between ++ pieces.description, by simp,
        ?_, ?_⟩
      · rw [← Position.after_append]
        exact target
      · rw [context, if_neg empty]
        refine .skip (.single ?_)
        simpa only [Position.after_append, Position.after_cons, Position.after_nil,
          List.append_assoc, List.cons_append, List.nil_append] using description

/-- A row of code that is not blank stands on itself. -/
theorem codeLineOn_row :
    CodeLineOn document (rowStart number) row (tokenAt file number .codeLine row 0 row.length) := by
  intro visible
  have nonempty : row ≠ [] := by
    rintro rfl
    cases visible
  exact copies_tokenAt file .codeLine (show row = [] ++ (row ++ []) from (List.append_nil row).symm)
    segment noFeed nonempty

end

/-! ## Steps over a row -/

/-- Whether a region is the inside of a fenced block. -/
def Region.isFence : Region → Bool
  | .fence _ _ => true
  | _ => false

section

variable (reaches : start.after chars = rowStart number)
  (segment : Segment document (rowStart number) row) (noFeed : '\n' ∉ row)

include reaches noFeed

/-- Behind the tokens of an opening fence, a block is open that stands on the row. -/
theorem Draft.StandsOn.openFence (stands : draft.StandsOn document start chars)
    {pieces : FencePieces} (shaped : fencePieces? row = some pieces) :
    Region.StandsOn document start (chars ++ (row ++ ['\n'])) draft
      (.fence (pieces.opener file number row) []) := by
  obtain ⟨before, own, tail, cut, covers⟩ := FencePieces.covers noFeed file number shaped
  have next := after_row number noFeed
  rw [cut, ← reaches] at next
  rw [← reaches, ← Position.after_append] at covers
  refine ⟨chars ++ before, own ++ (tail ++ ['\n']), ?_, stands.extend before,
    own, tail ++ ['\n'], [], by simp, covers, ?_, rfl, .done⟩
  · rw [cut]
    simp only [List.append_assoc]
  · simp only [Position.after_append] at next ⊢
    exact next

include segment

/-- Outside of fenced blocks, the tokens of a row turn a draft into one that stands along the row,
too. -/
theorem Draft.StandsOn.exists_becomes (file : String) (stands : draft.StandsOn document start chars)
    {shape : LineShape} (fits : shape.Fits row) (undirected : shape ≠ .shebang)
    (unfenced : ∀ pieces, shape ≠ .fence pieces) :
    ∃ next : Draft, draft.Becomes (shapeTokens file number row shape) next ∧
      next.StandsOn document start (chars ++ (row ++ ['\n'])) := by
  cases shape with
  | blank => exact ⟨draft, becomes_nil draft, stands.extend _⟩
  | shebang => exact absurd rfl undirected
  | heading pieces =>
    -- what a row leaves behind its heading only extends the draft
    obtain ⟨own, tail, cut, here⟩ := HeadingPieces.standsOn segment noFeed file fits
    rw [← reaches] at here
    have opened := (stands.openSection here).extend (tail ++ ['\n'])
    rw [List.append_assoc, ← List.append_assoc own, ← cut] at opened
    exact ⟨_, becomes_headingTokens draft pieces, opened⟩
  | comment => exact ⟨draft, becomes_commentTokens draft, stands.extend _⟩
  | fence pieces => exact absurd rfl (unfenced pieces)
  | link pieces =>
    obtain ⟨before, own, tail, cut, here⟩ := LinkPieces.standsOn segment noFeed file fits
    rw [← reaches, ← Position.after_append] at here
    have added := ((stands.extend before).addItem
      (show Item.StandsOn _ _ _ (.link _) from here)).extend (tail ++ ['\n'])
    rw [List.append_assoc, List.append_assoc, ← List.append_assoc own, ← List.append_assoc before,
      ← cut] at added
    exact ⟨_, becomes_linkTokens draft pieces, added⟩
  | plain =>
    obtain ⟨before, own, tail, cut, here⟩ := lineToken_copies segment noFeed file fits
    rw [← reaches] at here
    have added := (stands.addLine here).extend (tail ++ ['\n'])
    rw [List.append_assoc, List.append_assoc, ← List.append_assoc own, ← List.append_assoc before,
      ← cut] at added
    exact ⟨_, becomes_lineTokens draft, added⟩

end

variable {opener closer : Token} {lines : List Token}

/-- A closing fence behind an open block closes it. -/
theorem FencedBlock.OpensOn.close {gap ownCloser : List Char}
    (opens : FencedBlock.OpensOn document start own ⟨opener, lines, none⟩)
    (covers : closer.span.Covers ((start.after own).after gap) ownCloser) :
    FencedBlock.StandsOn document start (own ++ (gap ++ ownCloser))
      ⟨opener, lines, some closer⟩ := by
  obtain ⟨opening, between, body, rfl, covers', first, rows, along⟩ := opens.opens
  refine ⟨?_, opening ++ (between ++ body), gap ++ ownCloser, rfl,
    ⟨opening, between, body, rfl, covers', first, rows, along⟩⟩
  rw [← List.append_assoc]
  exact covers'.through covers (Position.after_append _ _ _)

/-- A row of code behind an open block joins it. -/
theorem FencedBlock.OpensOn.push
    (opens : FencedBlock.OpensOn document start own ⟨opener, lines, none⟩)
    (reaches : start.after own = rowStart number)
    (segment : Segment document (rowStart number) row) (noFeed : '\n' ∉ row) :
    FencedBlock.OpensOn document start (own ++ (row ++ ['\n']))
      ⟨opener, lines ++ [tokenAt file number .codeLine row 0 row.length], none⟩ := by
  obtain ⟨opening, between, body, rfl, covers, first, rows, along⟩ := opens.opens
  have here : (⟨FencedBlock.firstLine ⟨opener, lines, none⟩, 1⟩ : Position).after body =
      rowStart number := by
    rw [← first]
    simpa only [Position.after_append] using reaches
  -- the first line of a block without lines is the one behind its opening fence
  have same : FencedBlock.firstLine
      ⟨opener, lines ++ [tokenAt file number .codeLine row 0 row.length], none⟩ =
        FencedBlock.firstLine ⟨opener, lines, none⟩ := by
    cases lines with
    | nil =>
      rw [show body = [] from rows] at here
      exact (Position.mk.inj here).1.symm
    | cons line lines => rfl
  have whole : closedRows (((lines ++ [tokenAt file number .codeLine row 0 row.length]).map
      (·.value.toList))) = body ++ (row ++ ['\n']) := by
    rw [List.map_append, closedRows_append, ← rows]
    show body ++ closedRows [(String.ofList row).toList] = _
    rw [String.toList_ofList, closedRows_cons]
    rfl
  refine ⟨opening, between, body ++ (row ++ ['\n']), by simp only [List.append_assoc], covers, ?_,
    whole.symm, ?_⟩
  · rw [same]
    exact first
  · rw [same]
    refine along.append (.extend (.single ?_) ['\n'])
    rw [here]
    exact codeLineOn_row segment noFeed

/-- What is read before a row stands, and so does what is read behind it. -/
theorem exists_row_step (file : String) {region : Region} {openFence : Option Nat}
    (stands : region.StandsOn document start chars draft)
    (fenced : openFence.isSome = region.isFence)
    (reaches : start.after chars = rowStart number)
    (segment : Segment document (rowStart number) row) (noFeed : '\n' ∉ row)
    (undirected : LineShape.ofLine (number = 1) row ≠ .shebang) :
    ∃ (next : Region) (extended : Draft),
      next.StandsOn document start (chars ++ (row ++ ['\n'])) extended ∧
      (lineTokens file number row openFence).2.isSome = next.isFence ∧
      ∀ rest, draft.sections region ((lineTokens file number row openFence).1 ++ rest) =
        extended.sections next rest := by
  -- the lexer knows of an open fence exactly if the draft does, so both take the same branch
  cases region with
  | prose =>
    cases openFence with
    | some ticks => cases fenced
    | none =>
      have fits := LineShape.fits_ofLine (number = 1) row
      rw [lineTokens]
      generalize LineShape.ofLine (number = 1) row = shape at fits undirected
      cases shape with
      | fence pieces =>
        exact ⟨.fence (pieces.opener file number row) [], draft,
          stands.openFence reaches noFeed fits, rfl, draft.sections_openingTokens pieces⟩
      | _ =>
        obtain ⟨next, becomes, stands'⟩ :=
          Draft.StandsOn.exists_becomes reaches segment noFeed file stands fits undirected nofun
        exact ⟨.prose, next, stands', rfl, becomes⟩
  | fence opener lines =>
    cases openFence with
    | none => cases fenced
    | some ticks =>
      obtain ⟨front, own, rfl, draft', opens⟩ := stands
      rw [lineTokens]
      rw [Position.after_append] at reaches
      split
      · next closes =>
        obtain ⟨before, ownCloser, tail, cut, covers⟩ :=
          closingToken_covers noFeed file number closes
        rw [← reaches] at covers
        have added := (draft'.addItem
          (show Item.StandsOn _ _ _ (.fenced _) from opens.close covers)).extend (tail ++ ['\n'])
        rw [List.append_assoc, List.append_assoc, List.append_assoc, ← List.append_assoc ownCloser,
          ← List.append_assoc before, ← cut, ← List.append_assoc front] at added
        exact ⟨.prose, _, added, rfl, draft.sections_closingTokens⟩
      · refine ⟨.fence opener (lines ++ [_]), draft, ?_, rfl, draft.sections_codeTokens⟩
        refine ⟨front, own ++ (row ++ ['\n']), by simp only [List.append_assoc], draft', ?_⟩
        exact opens.push reaches segment noFeed
  | _ => exact stands.elim

/-! ## All rows -/

/-- Rows that are read without a fault leave what is read standing, whatever is read behind them. -/
theorem exists_rows_run {rows : List (List Char)} {tokens : List Token} {region : Region}
    {openFence : Option Nat} (stands : region.StandsOn document start chars draft)
    (fenced : openFence.isSome = region.isFence)
    (reaches : start.after chars = rowStart number)
    (segment : Segment document (rowStart number) (closedRows (rows.map dropReturn)))
    (noFeed : ∀ row ∈ rows, '\n' ∉ row)
    (undirected : ∀ row ∈ rows.head?, LineShape.ofLine (number = 1) (dropReturn row) ≠ .shebang)
    (reads : tokensOfLines file openFence number rows = .ok tokens) :
    ∃ (next : Region) (extended : Draft),
      next.StandsOn document start (chars ++ closedRows (rows.map dropReturn)) extended ∧
      ∀ rest, draft.sections region (tokens ++ rest) = extended.sections next rest := by
  induction rows generalizing chars draft number openFence region tokens with
  | nil =>
    cases reads
    refine ⟨region, draft, ?_, fun _ => rfl⟩
    rw [List.map_nil, closedRows, List.flatMap_nil, List.append_nil]
    exact stands
  | cons raw others ih =>
    rw [List.map_cons, closedRows_cons] at segment ⊢
    obtain ⟨-, behind, inner, rfl⟩ := exists_of_tokensOfLines_cons reads
    have line : '\n' ∉ dropReturn raw := fun member =>
      noFeed raw List.mem_cons_self ((dropReturn_isPrefix raw).mem member)
    obtain ⟨next, extended, stands', fenced', steps⟩ := exists_row_step file stands
      fenced reaches segment.left line (undirected raw rfl)
    have onward := after_row number line
    -- only the first row of a text can be a directive
    have later : ∀ row ∈ others.head?,
        LineShape.ofLine (number + 1 = 1) (dropReturn row) ≠ .shebang := by
      intro row _
      have counted : (1 : Int) ≤ number := segment.one_le_line
      rw [decide_eq_false (by omega)]
      exact LineShape.ofLine_ne_shebang _
    rw [List.append_cons] at segment
    obtain ⟨last, final, stands'', runs⟩ := ih stands' fenced'
      (by rw [Position.after_append, reaches, onward]) (onward ▸ segment.right)
      (fun row member => noFeed row (List.mem_cons_of_mem _ member)) later inner
    refine ⟨last, final, ?_, fun rest => ?_⟩
    · rwa [List.append_assoc, ← List.append_cons] at stands''
    · rw [List.append_assoc, steps, runs]

end DocGrammar
