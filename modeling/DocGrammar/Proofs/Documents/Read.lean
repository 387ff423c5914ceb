import DocGrammar.Proofs.Documents.Placed
import DocGrammar.Proofs.Documents.Stages

/-! # Documents on their text

The tokens of a text are cut into sections without any of them being misplaced: only a directive
that names no grammar is refused. The directive and the sections stand, one behind the other, on the
text without the carriage returns that end its rows.

* **`documentText`** — the text that positions count in.
* **`Document.StandsOn`** — the parts of a document stand along a text.
* **`Document.ofTokens_documentTokens`** — what becomes of the tokens of a text. -/

namespace DocGrammar

/-! ## The text of positions -/

/-- The rows of a text, each without the carriage return that may end it. -/
def documentRows (text : List Char) : List (List Char) := (feedLines text).map dropReturn

/-- The text that the positions of a document count in: its rows, each with a line feed behind. -/
def documentText (text : List Char) : List Char := closedRows (documentRows text)

/-- A line feed opens an empty line, any other character goes to the first line behind it. -/
theorem feedLines_cons (char : Char) (text : List Char) : ∃ line lines,
    feedLines text = line :: lines ∧
      feedLines (char :: text) =
        if char = '\n' then [] :: line :: lines else (char :: line) :: lines := by
  obtain ⟨line, lines, shape⟩ := List.exists_cons_of_ne_nil (feedLines_ne_nil text)
  refine ⟨line, lines, shape, ?_⟩
  rw [feedLines, shape]

/-- The lines of a text hold no line feeds. -/
theorem noFeed_of_mem_feedLines {text row : List Char} (member : row ∈ feedLines text) :
    '\n' ∉ row := by
  induction text generalizing row with
  | nil =>
    rw [feedLines, List.mem_singleton] at member
    rw [member]
    exact List.not_mem_nil
  | cons char text ih =>
    obtain ⟨line, lines, shape, longer⟩ := feedLines_cons char text
    rw [shape] at ih
    rw [longer] at member
    by_cases feed : char = '\n'
    · rw [if_pos feed] at member
      rcases List.mem_cons.mp member with rfl | below
      · exact List.not_mem_nil
      · exact ih below
    · rw [if_neg feed] at member
      rcases List.mem_cons.mp member with rfl | below
      · rw [List.mem_cons, not_or]
        exact ⟨fun same => feed same.symm, ih List.mem_cons_self⟩
      · exact ih (List.mem_cons_of_mem _ below)

/-- Behind some closed rows, the next row starts. -/
theorem after_closedRows {number : Nat} {rows : List (List Char)}
    (noFeed : ∀ row ∈ rows, '\n' ∉ row) :
    (rowStart number).after (closedRows rows) = rowStart (number + rows.length) := by
  induction rows generalizing number with
  | nil => rfl
  | cons row rows ih =>
    rw [closedRows_cons, List.append_cons, Position.after_append,
      after_row number (noFeed row List.mem_cons_self),
      ih fun other member => noFeed other (List.mem_cons_of_mem _ member), List.length_cons,
      Nat.add_assoc, Nat.add_comm 1]

/-! ## Documents along a text -/

/-- A directive is a row of the text that names a grammar. -/
structure Directive.StandsOn (document : List Char) (start : Position) (own : List Char)
    (directive : Directive) : Prop where
  /-- Its token is the row. -/
  copies : directive.token.Copies document start own
  /-- The row starts a line. -/
  starts : start.column = 1
  /-- It names the grammar. -/
  names : grammarNameOf? own = some directive.grammar

/-- The directive and the sections of a document stand along a text, which a line feed ends. The
document ends no earlier than the text before this line feed. -/
structure Document.StandsOn (document : List Char) (source : Document) : Prop where
  /-- Its parts stand along the text. -/
  parts : ∃ front back, document = front ++ back ∧
    Along (Directive.StandsOn document) Position.origin front source.directive.toList ∧
    Along (Section.StandsOn document) (Position.origin.after front) back source.sections
  /-- It ends behind them. -/
  finish : ∃ front, document = front ++ ['\n'] ∧
    Position.origin.after front ≤ source.finish.stop

variable {document chars : List Char} {start : Position} {draft : Draft} {region : Region}
  {file text : String} {tokens : List Token} {last : Token}

/-- At the end of the input, what is read becomes sections that stand along the text. -/
theorem Region.StandsOn.exists_sections (stands : region.StandsOn document start chars draft)
    (ends : last.kind = .endOfInput) :
    ∃ parts, draft.sections region [last] = .ok parts ∧
      Along (Section.StandsOn document) start chars parts := by
  cases region with
  | prose =>
    obtain ⟨front, own, rfl, complete, here⟩ := stands
    exact ⟨_, Draft.sections_last ends, complete.append (.single here)⟩
  | fence opener lines =>
    obtain ⟨front, own, rfl, ⟨before, inner, rfl, complete, _⟩, _⟩ := stands
    refine ⟨draft.complete ++ [⟨draft.heading, draft.items ++ [.fenced ⟨opener, lines, none⟩],
      some ⟨.unterminatedFence, opener.span⟩⟩], ?_, ?_⟩
    · rw [Draft.sections, if_pos ends]
      rfl
    · -- the last section is at fault, so nothing is said about it
      rw [List.append_assoc]
      exact complete.append (.single fun sound => absurd sound (Option.some_ne_none _))
  | _ => exact stands.elim

/-- Sections do not start with a directive. -/
theorem Draft.sections_shebang (draft : Draft) {first : Token} (shebang : first.kind = .shebang)
    (rest : List Token) :
    ∃ diagnostic, draft.sections .prose (first :: rest) = .error diagnostic := by
  refine ⟨misplaced first, ?_⟩
  -- no branch of prose takes a directive
  have stuck : draft.step first .prose = .error (misplaced first) := by
    rw [step, proseStep, shebang]
  rw [sections, if_neg (by rw [shebang]; decide), stuck]
  rfl

/-- The rows of a text become sections along it. -/
theorem exists_sections_of_rows {rows : List (List Char)} {number : Nat}
    (stands : draft.StandsOn document start chars) (reaches : start.after chars = rowStart number)
    (segment : Segment document (rowStart number) (closedRows (rows.map dropReturn)))
    (noFeed : ∀ row ∈ rows, '\n' ∉ row)
    (undirected : ∀ row ∈ rows.head?, LineShape.ofLine (number = 1) (dropReturn row) ≠ .shebang)
    (reads : tokensOfLines file none number rows = .ok tokens) (ends : last.kind = .endOfInput) :
    ∃ parts, draft.sections .prose (tokens ++ [last]) = .ok parts ∧
      Along (Section.StandsOn document) start (chars ++ closedRows (rows.map dropReturn))
        parts := by
  obtain ⟨region, extended, stands', runs⟩ :=
    exists_rows_run (show Region.StandsOn document start chars draft .prose from stands) rfl reaches
      segment noFeed undirected reads
  rw [runs]
  exact stands'.exists_sections ends

/-- A document ends no earlier than its text. -/
theorem exists_finish (file : String) (text : List Char) :
    ∃ front, documentText text = front ++ ['\n'] ∧
      Position.origin.after front ≤ (documentEnd file (feedLines text)).span.stop := by
  obtain ⟨init, last, shape⟩ : ∃ init last, feedLines text = init ++ [last] :=
    ⟨_, _, (List.dropLast_concat_getLast (feedLines_ne_nil text)).symm⟩
  have line : ∀ row ∈ feedLines text, '\n' ∉ dropReturn row := fun row member inside =>
    noFeed_of_mem_feedLines member ((dropReturn_isPrefix row).mem inside)
  rw [shape] at line
  refine ⟨closedRows (init.map dropReturn) ++ dropReturn last, ?_, ?_⟩
  · rw [documentText, documentRows, shape, List.map_append, closedRows_append]
    show _ ++ closedRows [dropReturn last] = _
    rw [closedRows_cons, List.append_assoc]
    rfl
  · -- the end token counts the return of the last row, which the text here is without
    have rows : ∀ row ∈ init.map dropReturn, '\n' ∉ row := by
      intro row member
      obtain ⟨raw, inInit, rfl⟩ := List.mem_map.mp member
      exact line raw (List.mem_append_left _ inInit)
    have inner : '\n' ∉ dropReturn last :=
      line last (List.mem_append_right _ List.mem_cons_self)
    have start : Position.origin = rowStart 1 := rfl
    rw [Position.after_append, start, after_closedRows rows, after_rowStart _ inner, shape,
      Position.le_iff]
    have shorter := (dropReturn_isPrefix last).length_le
    simp only [documentEnd, tokenAt, List.length_append, List.length_map, List.length_singleton,
      List.getLast?_concat, Option.getD_some]
    omega

/-- A directive stands where the first token does; other tokens are all left to the sections. -/
theorem Document.splitDirective_of_other {first : Token} (other : first.kind ≠ .shebang)
    (rest : List Token) : splitDirective (first :: rest) = .ok (none, first :: rest) :=
  if_neg other

theorem Document.splitDirective_of_shebang {first : Token} (shebang : first.kind = .shebang)
    (rest : List Token) : splitDirective (first :: rest) =
      match grammarNameOf? first.value.toList with
      | none => .error ⟨.malformedShebang first.value, first.span⟩
      | some grammar => .ok (some ⟨first, grammar⟩, rest) :=
  if_pos shebang

namespace Document

/-- What some tokens become, from what their directive and their sections are. -/
theorem ofTokens_eq {directive : Option Directive} {rest : List Token} {parts : List Section}
    (directs : splitDirective (tokens ++ [last]) = .ok (directive, rest))
    (cuts : Draft.empty.sections .prose rest = .ok parts) :
    ofTokens file (tokens ++ [last]) =
      .ok ⟨file, directive, dropEmptyPreamble parts, last.span⟩ := by
  rw [ofTokens_cut directs cuts, List.getLast?_concat]
  rfl

/-- A text without a directive becomes sections that stand on it. -/
theorem ofTokens_undirected
    (undirected : ∀ row ∈ (feedLines text.toList).head?,
      LineShape.ofLine true (dropReturn row) ≠ .shebang)
    (reads : tokensOfLines file none 1 (feedLines text.toList) = .ok tokens) :
    ∃ source, ofTokens file (tokens ++ [documentEnd file (feedLines text.toList)]) = .ok source ∧
      source.file = file ∧ source.directive = none ∧
      source.StandsOn (documentText text.toList) := by
  have ends : (documentEnd file (feedLines text.toList)).kind = .endOfInput := rfl
  obtain ⟨parts, cuts, along⟩ := exists_sections_of_rows Draft.StandsOn.empty
    (show Position.origin.after [] = rowStart 1 from rfl)
    (segment_self (documentText text.toList)) (fun _ => noFeed_of_mem_feedLines) undirected reads
    ends
  have directs : splitDirective (tokens ++ [documentEnd file (feedLines text.toList)]) =
      .ok (none, tokens ++ [documentEnd file (feedLines text.toList)]) := by
    cases tokens with
    | nil => rfl
    | cons first others =>
      -- the sections have been cut, so the first token is no directive
      refine splitDirective_of_other (fun shebang => ?_) _
      obtain ⟨diagnostic, refused⟩ := Draft.empty.sections_shebang shebang _
      cases cuts.symm.trans refused
  refine ⟨_, ofTokens_eq directs cuts, rfl, rfl,
    ⟨[], documentText text.toList, rfl, .done, ?_⟩, ?_⟩
  · exact along.sublist (dropEmptyPreamble_sublist parts)
  · exact exists_finish file text.toList

variable {raw : List Char} {others : List (List Char)}

/-- The token of a directive row. -/
def directiveToken (file : String) (row : List Char) : Token :=
  tokenAt file 1 .shebang row 0 row.length

/-- A directive row becomes its token and a line end. -/
theorem exists_of_directive (directs : LineShape.ofLine true (dropReturn raw) = .shebang)
    (reads : tokensOfLines file none 1 (raw :: others) = .ok tokens) :
    ∃ behind, tokens = directiveToken file (dropReturn raw) ::
        lineEndToken file 1 (dropReturn raw) :: behind ∧
      tokensOfLines file none 2 others = .ok behind := by
  have line : lineTokens file 1 (dropReturn raw) none =
      ([directiveToken file (dropReturn raw), lineEndToken file 1 (dropReturn raw)], none) := by
    rw [lineTokens]
    simp only [decide_true, directs]
    rfl
  obtain ⟨-, behind, inner, whole⟩ := exists_of_tokensOfLines_cons reads
  rw [line] at inner whole
  exact ⟨behind, whole, inner⟩

/-- A directive that names a grammar stands on its row. -/
theorem directive_standsOn {grammar : String} {row behind : List Char} (noFeed : '\n' ∉ row)
    (nonempty : row ≠ []) (segment : Segment document (rowStart 1) (row ++ behind))
    (names : grammarNameOf? row = some grammar) :
    Directive.StandsOn document (rowStart 1) row ⟨directiveToken file row, grammar⟩ := by
  have value : (directiveToken file row).value.toList = row := String.toList_ofList
  have covers := covers_tokenAt file 1 .shebang row
    (show row = [] ++ (row ++ []) from (List.append_nil row).symm) noFeed nonempty
  exact ⟨⟨covers, value, noFeed, segment.left⟩, rfl, names⟩

/-- What the tokens behind a directive row are split into. -/
theorem splitDirective_row (file : String) (row : List Char) (rest : List Token) :
    splitDirective (directiveToken file row :: rest) =
      match grammarNameOf? row with
      | none => .error ⟨.malformedShebang (String.ofList row), (directiveToken file row).span⟩
      | some grammar => .ok (some ⟨directiveToken file row, grammar⟩, rest) := by
  have value : (directiveToken file row).value.toList = row := String.toList_ofList
  rw [splitDirective_of_shebang rfl, value]
  rfl

/-- A text with a directive that names no grammar is refused at the directive. -/
theorem ofTokens_unnamed (rows : feedLines text.toList = raw :: others)
    (directs : LineShape.ofLine true (dropReturn raw) = .shebang)
    (unnamed : grammarNameOf? (dropReturn raw) = none)
    (reads : tokensOfLines file none 1 (feedLines text.toList) = .ok tokens) :
    ofTokens file (tokens ++ [documentEnd file (feedLines text.toList)]) =
      .error ⟨.malformedShebang (String.ofList (dropReturn raw)),
        (directiveToken file (dropReturn raw)).span⟩ := by
  rw [rows] at reads
  obtain ⟨behind, rfl, _⟩ := exists_of_directive directs reads
  refine ofTokens_refused ?_
  rw [List.cons_append, splitDirective_row, unnamed]

/-- A text with a directive that names a grammar becomes the directive and sections behind it. -/
theorem ofTokens_named {grammar : String} (rows : feedLines text.toList = raw :: others)
    (directs : LineShape.ofLine true (dropReturn raw) = .shebang)
    (names : grammarNameOf? (dropReturn raw) = some grammar)
    (reads : tokensOfLines file none 1 (feedLines text.toList) = .ok tokens) :
    ∃ source, ofTokens file (tokens ++ [documentEnd file (feedLines text.toList)]) = .ok source ∧
      source.file = file ∧
      source.directive = some ⟨directiveToken file (dropReturn raw), grammar⟩ ∧
      source.StandsOn (documentText text.toList) := by
  have ends : (documentEnd file (feedLines text.toList)).kind = .endOfInput := rfl
  rw [rows] at reads
  obtain ⟨behind, rfl, inner⟩ := exists_of_directive directs reads
  have split := splitDirective_row file (dropReturn raw)
    (lineEndToken file 1 (dropReturn raw) :: (behind ++ [documentEnd file (feedLines text.toList)]))
  rw [names] at split
  have noFeed := fun row (member : row ∈ raw :: others) =>
    noFeed_of_mem_feedLines (rows ▸ member)
  have inLine : '\n' ∉ dropReturn raw := fun member =>
    noFeed raw List.mem_cons_self ((dropReturn_isPrefix raw).mem member)
  have nonempty : dropReturn raw ≠ [] := by
    intro empty
    rw [empty] at directs
    cases directs
  have whole : documentText text.toList =
      dropReturn raw ++ ('\n' :: closedRows (others.map dropReturn)) := by
    rw [documentText, documentRows, rows, List.map_cons, closedRows_cons]
  have segment : Segment (documentText text.toList) (rowStart 1)
      (dropReturn raw ++ ('\n' :: closedRows (others.map dropReturn))) :=
    whole ▸ segment_self (documentText text.toList)
  have onward : (rowStart 1).after (dropReturn raw ++ ['\n']) = rowStart 2 := after_row 1 inLine
  have below : Segment (documentText text.toList) (rowStart 2)
      (closedRows (others.map dropReturn)) := by
    rw [List.append_cons] at segment
    rw [← onward]
    exact segment.right
  -- the sections start behind the row of the directive
  obtain ⟨parts, cuts, along⟩ := exists_sections_of_rows
    (Draft.StandsOn.empty.extend ['\n']) (by rw [← Position.after_append]; exact onward) below
    (fun row member => noFeed row (List.mem_cons_of_mem _ member))
    (fun row _ => LineShape.ofLine_ne_shebang _) inner ends
  have cuts' : Draft.empty.sections .prose (lineEndToken file 1 (dropReturn raw) ::
      (behind ++ [documentEnd file (feedLines text.toList)])) = .ok parts := by
    rw [Draft.sections_cons TokenKind.noConfusion rfl, cuts]
  refine ⟨_, ofTokens_eq split cuts', rfl, rfl, ⟨dropReturn raw, _, whole, ?_, ?_⟩, ?_⟩
  · exact .single (directive_standsOn inLine nonempty segment names)
  · exact along.sublist (dropEmptyPreamble_sublist parts)
  · exact exists_finish file text.toList

/-- The tokens of a text become a document that stands on it, unless its directive names no
grammar. -/
theorem ofTokens_documentTokens (reads : documentTokens file text = .ok tokens) :
    (∃ source, ofTokens file tokens = .ok source ∧ source.file = file ∧
      source.StandsOn (documentText text.toList)) ∨
    ∃ diagnostic, ofTokens file tokens = .error diagnostic ∧ diagnostic.kind = .selection := by
  obtain ⟨behind, inner, rfl⟩ := exists_of_documentTokens reads
  obtain ⟨raw, others, rows⟩ := List.exists_cons_of_ne_nil (feedLines_ne_nil text.toList)
  by_cases directs : LineShape.ofLine true (dropReturn raw) = .shebang
  · cases names : grammarNameOf? (dropReturn raw) with
    | none => exact .inr ⟨_, ofTokens_unnamed rows directs names inner, rfl⟩
    | some grammar =>
      obtain ⟨source, cuts, sameFile, _, stands⟩ := ofTokens_named rows directs names inner
      exact .inl ⟨source, cuts, sameFile, stands⟩
  · have undirected : ∀ row ∈ (feedLines text.toList).head?,
        LineShape.ofLine true (dropReturn row) ≠ .shebang := by
      intro row first
      rw [rows] at first
      cases first
      exact directs
    obtain ⟨source, cuts, sameFile, _, stands⟩ := ofTokens_undirected undirected inner
    exact .inl ⟨source, cuts, sameFile, stands⟩

end Document

end DocGrammar
