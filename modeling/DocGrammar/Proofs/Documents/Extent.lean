import DocGrammar.Proofs.Documents.Cut
import DocGrammar.Proofs.Documents.Read

/-! # The rows that sections take up

Along a document, the tokens that its sections hold stand on rows from first to last, and only a
text stands on the row of the token before it. Since a heading starts a row, every section takes up
rows of its own.

* **`Token.Before`** — how a token stands to one behind it.
* **`Stretch`**, **`stretch_tokensOfLines`** — the tokens of some rows.
* **`Section.Reaches`** — the rows from the first to the last token of a section.
* **`Document.pairwise_reaches`** — no section reaches a row that a later one reaches. -/

namespace DocGrammar

/-! ## Tokens on rows -/

/-- A token stands on the row of one before it only if it is a text. -/
structure Token.Before (above below : Token) : Prop where
  /-- It stands on no earlier row. -/
  le : above.line ≤ below.line
  /-- If it is no text, it stands on a later row. -/
  lt : below.kind ≠ .text → above.line < below.line

/-- A token ends on its row, and a line holds no line feed. -/
structure Token.OnRow (token : Token) : Prop where
  /-- It ends where it starts. -/
  stops : token.span.stop.line = token.line
  /-- A line of text or code is a single one. -/
  noFeed : token.kind = .line ∨ token.kind = .codeLine → '\n' ∉ token.value.toList

/-- What holds of the tokens of the rows from one number up to, but not including, another. -/
structure Stretch (first behind : Nat) (tokens : List Token) : Prop where
  /-- They stand on these rows. -/
  rows : ∀ token ∈ tokens, (first : Int) ≤ token.line ∧ token.line < behind
  /-- None of them ends the input. -/
  inner : ∀ token ∈ tokens, token.kind ≠ .endOfInput
  /-- Those that are held end on their rows. -/
  onRow : ∀ token ∈ content tokens, token.OnRow
  /-- Those that are held start rows unless they are texts. -/
  order : (content tokens).Pairwise Token.Before

variable {file : String} {number first middle behind : Nat} {tokens more : List Token}

theorem stretch_nil (number : Nat) : Stretch number number [] :=
  ⟨List.forall_mem_nil _, List.forall_mem_nil _, List.forall_mem_nil _, List.Pairwise.nil⟩

/-- The tokens of later rows follow those of earlier ones. -/
theorem Stretch.append (above : Stretch first middle tokens) (below : Stretch middle behind more)
    (ordered : first ≤ middle ∧ middle ≤ behind) : Stretch first behind (tokens ++ more) := by
  refine ⟨?_, List.forall_mem_append.mpr ⟨above.inner, below.inner⟩, ?_, ?_⟩
  · refine List.forall_mem_append.mpr ⟨fun token member => ?_, fun token member => ?_⟩
    · have rows := above.rows token member
      omega
    · have rows := below.rows token member
      omega
  · rw [content_append]
    exact List.forall_mem_append.mpr ⟨above.onRow, below.onRow⟩
  · rw [content_append]
    refine List.pairwise_append.mpr ⟨above.order, below.order, fun token member next later => ?_⟩
    -- the rows of the one and of the other lie on either side of `middle`
    have rows := above.rows token (List.mem_of_mem_filter member)
    have rows' := below.rows next (List.mem_of_mem_filter later)
    exact ⟨by omega, fun _ => by omega⟩

/-- A token of a row is placed on it. -/
structure Token.IsAt (number : Nat) (token : Token) : Prop where
  /-- It starts on the row. -/
  line : token.line = number
  /-- It does not end the input. -/
  inner : token.kind ≠ .endOfInput
  /-- It ends on the row unless it is the end of the row. -/
  onRow : token.kind ≠ .newline → token.OnRow

/-- A token of a row is placed on it, a line of text or code if it holds no line feed. -/
theorem isAt_tokenAt {kind : TokenKind} {value : List Char} {offset width : Nat}
    (inner : kind ≠ .endOfInput) (noFeed : kind = .line ∨ kind = .codeLine → '\n' ∉ value) :
    (tokenAt file number kind value offset width).IsAt number :=
  ⟨rfl, inner, fun _ => ⟨rfl, fun isLine => by
    rw [tokenAt, String.toList_ofList]
    exact noFeed isLine⟩⟩

/-- A token of a row that is no line of text or code is placed on it. -/
theorem isAt_mark {kind : TokenKind} {value : List Char} {offset width : Nat}
    (other : kind ≠ .endOfInput ∧ ¬(kind = .line ∨ kind = .codeLine)) :
    (tokenAt file number kind value offset width).IsAt number :=
  isAt_tokenAt other.1 fun isLine => absurd isLine other.2

theorem isAt_lineEndToken (row : List Char) : (lineEndToken file number row).IsAt number :=
  ⟨rfl, TokenKind.noConfusion, fun other => absurd rfl other⟩

/-- The tokens of a row: all but the first of those that are held are texts. -/
theorem stretch_row (placed : ∀ token ∈ tokens, token.IsAt number)
    (texts : ∀ token ∈ (content tokens).tail, token.kind = .text) :
    Stretch number (number + 1) tokens := by
  have held : ∀ token ∈ content tokens, token.IsAt number := fun token member =>
    placed token (List.mem_of_mem_filter member)
  refine ⟨fun token member => ?_, fun token member => (placed token member).inner,
    fun token member => (held token member).onRow ?_, ?_⟩
  · have line := (placed token member).line
    omega
  · intro feed
    have holds := (List.mem_filter.mp member).2
    rw [feed] at holds
    cases holds
  · cases shape : content tokens with
    | nil => exact List.Pairwise.nil
    | cons token others =>
      rw [shape] at held texts
      -- all are on one row, where texts may stand in any order
      have follows : ∀ above ∈ token :: others, ∀ below ∈ others, above.Before below := by
        intro above member below later
        have line := (held above member).line
        have line' := (held below (List.mem_cons_of_mem _ later)).line
        exact ⟨by omega, fun other => absurd (texts below later) other⟩
      refine List.pairwise_cons.mpr ⟨follows token List.mem_cons_self, ?_⟩
      exact List.pairwise_of_forall_mem_list fun above member below later =>
        follows above (List.mem_cons_of_mem _ member) below later

/-- The tokens of a row outside fenced blocks. -/
theorem stretch_shapeTokens {row : List Char} (noFeed : '\n' ∉ row) (shape : LineShape) :
    Stretch number (number + 1) (shapeTokens file number row shape) := by
  have inLine : '\n' ∉ trim row := fun member => noFeed ((trim_isInfix row).mem member)
  refine stretch_row ?_ ?_
  · cases shape with
    | blank => exact List.forall_mem_nil _
    | plain =>
      refine List.forall_mem_cons.mpr ⟨isAt_tokenAt (by decide) fun _ => inLine, ?_⟩
      exact List.forall_mem_singleton.mpr (isAt_lineEndToken row)
    | heading pieces =>
      refine List.forall_mem_cons.mpr ⟨isAt_mark (by decide), ?_⟩
      refine List.forall_mem_cons.mpr ⟨isAt_mark (by decide), ?_⟩
      exact List.forall_mem_singleton.mpr (isAt_lineEndToken row)
    | link pieces =>
      refine List.forall_mem_append.mpr ⟨List.forall_mem_append.mpr ⟨?_, ?_⟩,
        List.forall_mem_singleton.mpr (isAt_lineEndToken row)⟩
      · refine List.forall_mem_cons.mpr ⟨isAt_mark (by decide), ?_⟩
        refine List.forall_mem_cons.mpr ⟨isAt_mark (by decide), ?_⟩
        refine List.forall_mem_cons.mpr ⟨isAt_mark (by decide), ?_⟩
        exact List.forall_mem_singleton.mpr (isAt_mark (by decide))
      · split
        · exact List.forall_mem_nil _
        · exact List.forall_mem_singleton.mpr (isAt_mark (by decide))
    | _ =>
      refine List.forall_mem_cons.mpr ⟨isAt_mark (by decide), ?_⟩
      exact List.forall_mem_singleton.mpr (isAt_lineEndToken row)
  · -- of the tokens that are held, only those of headings and links are more than one
    cases shape with
    | heading pieces => exact List.forall_mem_singleton.mpr rfl
    | link pieces =>
      rw [shapeTokens, linkTokens]
      split
      · exact List.forall_mem_singleton.mpr rfl
      · exact List.forall_mem_cons.mpr ⟨rfl, List.forall_mem_singleton.mpr rfl⟩
    | _ => exact List.forall_mem_nil _

/-- The tokens of a row, also of one inside a fenced block. -/
theorem stretch_lineTokens {row : List Char} (noFeed : '\n' ∉ row) (openFence : Option Nat) :
    Stretch number (number + 1) (lineTokens file number row openFence).1 := by
  cases openFence with
  | none => exact stretch_shapeTokens noFeed _
  | some ticks =>
    rw [lineTokens]
    split
    · refine stretch_row ?_ (List.forall_mem_nil _)
      refine List.forall_mem_cons.mpr ⟨isAt_mark (by decide), ?_⟩
      exact List.forall_mem_singleton.mpr (isAt_lineEndToken row)
    · refine stretch_row ?_ (List.forall_mem_nil _)
      exact List.forall_mem_singleton.mpr (isAt_tokenAt (by decide) fun _ => noFeed)

theorem line_of_forbiddenCharacter? {row : List Char} {diagnostic : Diagnostic}
    (forbidden : forbiddenCharacter? file number row = some diagnostic) :
    diagnostic.span.start.line = number := by
  obtain ⟨_, _, rfl⟩ := exists_of_forbiddenCharacter? forbidden
  rfl

/-- The tokens of some rows. A forbidden character stands on one of them. -/
theorem stretch_tokensOfLines (file : String) {rows : List (List Char)}
    (noFeed : ∀ row ∈ rows, '\n' ∉ row)
    (openFence : Option Nat) (number : Nat) :
    match tokensOfLines file openFence number rows with
    | .ok tokens => Stretch number (number + rows.length) tokens
    | .error diagnostic => (number : Int) ≤ diagnostic.span.start.line ∧
        diagnostic.span.start.line < (number + rows.length : Nat) := by
  induction rows generalizing openFence number with
  | nil => exact stretch_nil number
  | cons raw others ih =>
    obtain ⟨here, below⟩ := List.forall_mem_cons.mp noFeed
    have inRow : '\n' ∉ dropReturn raw := fun member => here ((dropReturn_isPrefix raw).mem member)
    have row : Stretch number (number + 1) (lineTokens file number (dropReturn raw) openFence).1 :=
      stretch_lineTokens inRow openFence
    have later := ih below (lineTokens file number (dropReturn raw) openFence).2 (number + 1)
    rw [List.length_cons]
    rcases tokensOfLines_cases file openFence number raw others with ⟨_, forbidden, refused⟩ |
      ⟨_, mapped⟩
    · -- a forbidden character stands on the row that it is found on
      have line := line_of_forbiddenCharacter? forbidden
      rw [refused]
      dsimp only
      omega
    · rw [mapped]
      cases read : tokensOfLines file (lineTokens file number (dropReturn raw) openFence).2
          (number + 1) others with
      | error diagnostic =>
        rw [read] at later
        simp only [Except.map] at later ⊢
        omega
      | ok tokens =>
        rw [read, Nat.add_right_comm] at later
        exact row.append later (by omega)

/-- A text has at least one row. -/
theorem one_le_length_feedLines (text : String) : 1 ≤ (feedLines text.toList).length :=
  List.length_pos_iff.mpr (feedLines_ne_nil _)

/-- What holds of the tokens of a document. -/
structure DocumentTokens (rows : Nat) (tokens : List Token) : Prop where
  /-- The last of them, and no other one, ends the input. -/
  ends : EndsInput tokens
  /-- They stand on the rows of the document. -/
  rows : ∀ token ∈ tokens, 1 ≤ token.line ∧ token.line ≤ rows
  /-- Those that are held end on their rows. -/
  onRow : ∀ token ∈ content tokens, token.OnRow
  /-- Those that are held start rows unless they are texts. -/
  order : (content tokens).Pairwise Token.Before

/-- What is read as the tokens of a text. A forbidden character stands on one of its rows. -/
theorem rows_of_documentTokens (file text : String) :
    match documentTokens file text with
    | .ok tokens => DocumentTokens (feedLines text.toList).length tokens
    | .error diagnostic => 1 ≤ diagnostic.span.start.line ∧
        diagnostic.span.start.line ≤ (feedLines text.toList).length := by
  have positive := one_le_length_feedLines text
  have noFeed : ∀ row ∈ feedLines text.toList, '\n' ∉ row := fun row =>
    noFeed_of_mem_feedLines
  have stretch := stretch_tokensOfLines file noFeed none 1
  rw [documentTokens_eq]
  cases read : tokensOfLines file none 1 (feedLines text.toList) with
  | error diagnostic =>
    rw [read] at stretch
    simp only [Except.map] at stretch ⊢
    omega
  | ok tokens =>
    rw [read] at stretch
    have last : (documentEnd file (feedLines text.toList)).kind = .endOfInput := rfl
    -- the end of the input is not held, so what is held of the rows is all that is held
    have held : content (tokens ++ [documentEnd file (feedLines text.toList)]) = content tokens :=
      content_concat_blank rfl tokens
    refine ⟨EndsInput.append last stretch.inner, ?_, held ▸ stretch.onRow, held ▸ stretch.order⟩
    refine List.forall_mem_append.mpr ⟨fun token member => ?_, List.forall_mem_singleton.mpr ?_⟩
    · have rows := stretch.rows token member
      omega
    · have line : (documentEnd file (feedLines text.toList)).line =
          (feedLines text.toList).length := rfl
      omega

/-! ## Sections on rows -/

/-- A row that a section reaches: one from the row of one of its tokens to that of another. -/
def Section.Reaches (part : Section) (line : Int) : Prop :=
  ∃ above ∈ part.tokens, ∃ below ∈ part.tokens, above.line ≤ line ∧ line ≤ below.line

/-- What holds of a section of a document with some rows. -/
structure Section.Laid (rows : Nat) (part : Section) : Prop where
  /-- Its tokens fit together. -/
  formed : part.Formed
  /-- They stand on the rows of the document. -/
  rows : ∀ token ∈ part.tokens, 1 ≤ token.line ∧ token.line ≤ rows
  /-- They end on their rows. -/
  onRow : ∀ token ∈ part.tokens, token.OnRow
  /-- They start rows unless they are texts. -/
  order : part.tokens.Pairwise Token.Before

variable {source : Document} {part later : Section} {rows : Nat}

/-- A section reaches no row that a section with a heading reaches behind it. -/
theorem Section.lt_of_reaches (laid : later.Laid rows) (headed : later.heading.isSome)
    (before : ∀ token ∈ part.tokens, ∀ next ∈ later.tokens, token.Before next) {line other : Int}
    (reaches : part.Reaches line) (reaches' : later.Reaches other) : line < other := by
  obtain ⟨heading, same⟩ := Option.isSome_iff_exists.mp headed
  obtain ⟨isMarker, _⟩ := laid.formed.heading heading same
  have starts : later.tokens = heading.marker ::
      (heading.title :: later.items.flatMap Item.tokens) := by
    simp [Section.tokens, same, Heading.tokens]
  obtain ⟨_, _, last, member, _, le⟩ := reaches
  obtain ⟨first, member', _, _, ge, _⟩ := reaches'
  -- the marker starts a row behind the one section and in front of the other
  have marker : heading.marker ∈ later.tokens := starts ▸ List.mem_cons_self
  have above : last.line < heading.marker.line :=
    (before last member _ marker).lt (by rw [isMarker]; decide)
  have below : heading.marker.line ≤ first.line := by
    have order := laid.order
    rw [starts] at order member'
    rcases List.mem_cons.mp member' with rfl | inner
    · exact Int.le_refl _
    · exact ((List.pairwise_cons.mp order).1 first inner).le
  omega

namespace Document

/-- The tokens of the sections of a document are among those that it holds. -/
theorem mem_content_of_ofTokens (ends : EndsInput tokens) (cuts : ofTokens file tokens = .ok source)
    (member : part ∈ source.sections) {token : Token} (inside : token ∈ part.tokens) :
    token ∈ content tokens := by
  obtain ⟨rest, parts, split, cut, sections⟩ := exists_cutInto ends cuts
  rw [← tokens_of_cutInto split cut sections]
  exact List.mem_append_right _ (List.mem_flatMap.mpr ⟨part, member, inside⟩)

/-- The sections of a document stand on its rows, one behind the other. -/
theorem laid_of_ofTokens (lexed : DocumentTokens rows tokens)
    (cuts : ofTokens file tokens = .ok source) :
    (∀ part ∈ source.sections, part.Laid rows) ∧
      (source.sections.Pairwise fun part later =>
        ∀ line other, part.Reaches line → later.Reaches other → line < other) ∧
      ∀ directive ∈ source.directive, 1 ≤ directive.token.line ∧ directive.token.line ≤ rows := by
  obtain ⟨rest, parts, split, cut, sections⟩ := exists_cutInto lexed.ends cuts
  have held := tokens_of_cutInto split cut sections
  have sublist : source.sections.Sublist parts := sections ▸ dropEmptyPreamble_sublist parts
  obtain ⟨first, others, rfl, _, headed⟩ := exists_preamble cut
  have order := lexed.order
  rw [← held, Document.tokens] at order
  obtain ⟨_, inner, _⟩ := List.pairwise_append.mp order
  obtain ⟨each, between⟩ := List.pairwise_flatMap.mp inner
  have member : ∀ part ∈ source.sections, ∀ token ∈ part.tokens, token ∈ content tokens :=
    fun part inside token => mem_content_of_ofTokens lexed.ends cuts inside
  have laid : ∀ part ∈ source.sections, part.Laid rows := fun part inside =>
    ⟨cut.formed part (sublist.subset inside),
      fun token within =>
        lexed.rows token (List.mem_of_mem_filter (member part inside token within)),
      fun token within => lexed.onRow token (member part inside token within), each part inside⟩
  refine ⟨laid, ?_, fun directive named => ?_⟩
  · -- only the first section can be without a heading, which starts a row of its own
    have behind : source.sections.Pairwise fun _ later => later.heading.isSome := by
      refine List.Pairwise.sublist sublist (List.pairwise_cons.mpr ⟨headed, ?_⟩)
      exact List.pairwise_of_forall_mem_list fun _ _ later member => headed later member
    refine List.Pairwise.imp_of_mem ?_ (between.and behind)
    intro part later inside inside' both line other
    exact Section.lt_of_reaches (laid later inside') both.2 both.1
  · have inside : directive.token ∈ source.tokens :=
      List.mem_append_left _ (List.mem_map_of_mem (Option.mem_toList.mpr named))
    rw [held] at inside
    exact lexed.rows _ (List.mem_of_mem_filter inside)

end Document

end DocGrammar
