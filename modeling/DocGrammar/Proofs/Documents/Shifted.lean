import DocGrammar.Proofs.Documents.Directives
import DocGrammar.Proofs.Documents.Fenced

/-! # Fenced blocks in front of a text

A fenced block quotes any rows that do not close it, and the rows behind it are read as if they
stood alone. Only their line numbers are greater, by the number of rows that the block takes up.

* **`tokensOfLines_down`** — rows further down become the same tokens further down.
* **`feedLines_intercalate_concat`** — the lines of a text behind some rows.
* **`documentTokens_block`** — the tokens of a text behind the rows of a fenced block.
* **`documentTokens_fenced`** — the tokens of a fenced block with any text behind it. -/

namespace DocGrammar

/-! ## Moving down -/

/-- The place that stands some lines further down. -/
def Position.down (position : Position) (count : Nat) : Position :=
  ⟨position.line + count, position.column⟩

/-- The span that stands some lines further down. -/
def Span.down (span : Span) (count : Nat) : Span :=
  ⟨span.file, span.start.down count, span.stop.down count⟩

/-- The token that stands some lines further down. -/
def Token.down (count : Nat) (token : Token) : Token :=
  ⟨token.kind, token.value, token.span.down count⟩

/-- The diagnostic that stands some lines further down. -/
def Diagnostic.down (count : Nat) (diagnostic : Diagnostic) : Diagnostic :=
  ⟨diagnostic.cause, diagnostic.span.down count⟩

variable {file : String} {number count : Nat} {row : List Char}

@[simp] theorem down_tokenAt (kind : TokenKind) (value : List Char) (offset width : Nat) :
    (tokenAt file number kind value offset width).down count =
      tokenAt file (number + count) kind value offset width := by
  simp [tokenAt, Token.down, Span.down, Position.down]

@[simp] theorem down_lineEndToken :
    (lineEndToken file number row).down count = lineEndToken file (number + count) row :=
  down_tokenAt _ _ _ _

/-- The shape of a row tells its tokens, wherever the row stands. -/
theorem shapeTokens_down (shape : LineShape) :
    shapeTokens file (number + count) row shape =
      (shapeTokens file number row shape).map (Token.down count) := by
  cases shape with
  | link pieces =>
    by_cases bare : pieces.description.isEmpty = true
    · simp [shapeTokens, linkTokens, bare]
    · simp [shapeTokens, linkTokens, bare]
  | _ => simp [shapeTokens]

/-- Whether a row is the first matters only for the shape of a directive. -/
theorem ofLine_undirected (isFirst : Bool) (plain : ¬['#', '!'] <+: row) :
    LineShape.ofLine isFirst row = LineShape.ofLine false row := by
  have noMarks : ['#', '!'].isPrefixOf row = false := by
    rw [← Bool.not_eq_true, List.isPrefixOf_iff_prefix]
    exact plain
  unfold LineShape.ofLine
  rw [noMarks, Bool.and_false, Bool.false_and]

/-- A row that is no directive has the same shape further down. -/
theorem ofLine_down (plain : number = 1 → ¬['#', '!'] <+: row) (positive : 1 ≤ number) :
    LineShape.ofLine (number + count = 1) row = LineShape.ofLine (number = 1) row := by
  by_cases first : number = 1
  · rw [ofLine_undirected (number + count = 1) (plain first),
      ofLine_undirected (number = 1) (plain first)]
  · have later : number + count ≠ 1 := by omega
    simp [first, later]

/-- A row that is no directive becomes the same tokens further down. -/
theorem lineTokens_down (plain : number = 1 → ¬['#', '!'] <+: row) (positive : 1 ≤ number)
    (openFence : Option Nat) :
    lineTokens file (number + count) row openFence =
      ((lineTokens file number row openFence).1.map (Token.down count),
        (lineTokens file number row openFence).2) := by
  cases openFence with
  | none =>
    unfold lineTokens
    dsimp only
    rw [ofLine_down plain positive, shapeTokens_down]
  | some ticks =>
    unfold lineTokens
    by_cases closes : closesFence ticks row = true
    · simp [closes]
    · simp [closes]

/-- A forbidden character is reported further down. -/
theorem forbiddenCharacter?_down :
    forbiddenCharacter? file (number + count) row =
      (forbiddenCharacter? file number row).map (Diagnostic.down count) := by
  unfold forbiddenCharacter?
  cases row.dropWhile (!isForbidden ·) with
  | nil => rfl
  | cons char others => simp [Diagnostic.down, Span.down, Span.point, Position.down]

/-- What was read, further down. -/
def lexedDown (count : Nat) : Except Diagnostic (List Token) → Except Diagnostic (List Token)
  | .ok tokens => .ok (tokens.map (Token.down count))
  | .error diagnostic => .error (diagnostic.down count)

/-- Rows of which the first is no directive become the same tokens further down, or fail in the same
way further down. -/
theorem tokensOfLines_down {rows : List (List Char)} (openFence : Option Nat)
    (plain : number = 1 → ∀ raw ∈ rows.head?, ¬['#', '!'] <+: dropReturn raw)
    (positive : 1 ≤ number) :
    tokensOfLines file openFence (number + count) rows =
      lexedDown count (tokensOfLines file openFence number rows) := by
  induction rows generalizing number openFence with
  | nil => rfl
  | cons raw others ih =>
    have same : lineTokens file (number + count) (dropReturn raw) openFence = _ :=
      lineTokens_down (fun first => plain first raw rfl) positive openFence
    -- only the first row of a text can be a directive
    have later : number + 1 = 1 → ∀ raw ∈ others.head?, ¬['#', '!'] <+: dropReturn raw := by
      intro first
      omega
    have behind := ih (lineTokens file number (dropReturn raw) openFence).2 later (by omega)
    rw [Nat.add_right_comm] at behind
    have moved : forbiddenCharacter? file (number + count) (dropReturn raw) = _ :=
      forbiddenCharacter?_down
    rcases tokensOfLines_cases file openFence number raw others with ⟨_, forbidden, refused⟩ |
      ⟨allowed, mapped⟩
    · rw [forbidden] at moved
      rw [refused, tokensOfLines_of_forbidden _ _ moved]
      rfl
    · rw [allowed] at moved
      rw [mapped, tokensOfLines_of_allowed _ _ moved, same, behind]
      cases tokensOfLines file (lineTokens file number (dropReturn raw) openFence).2 (number + 1)
        others with
      | error diagnostic => rfl
      | ok tokens =>
        show Except.ok _ = Except.ok _
        rw [List.map_append]

/-! ## Behind some rows -/

/-- The lines of a text behind some rows. -/
theorem feedLines_intercalate_concat {rows : List (List Char)}
    (noFeed : ∀ row ∈ rows, '\n' ∉ row) (text : List Char) :
    feedLines (['\n'].intercalate (rows ++ [text])) = rows ++ feedLines text := by
  induction rows with
  | nil => simp [List.intercalate]
  | cons row rows ih =>
    have here := noFeed row List.mem_cons_self
    have behind := ih fun other member => noFeed other (List.mem_cons_of_mem _ member)
    have joined : ['\n'].intercalate (row :: (rows ++ [text])) =
        row ++ '\n' :: ['\n'].intercalate (rows ++ [text]) := by
      cases rows <;> simp [List.intercalate]
    rw [List.cons_append, joined, feedLines_append here, behind, List.cons_append]

/-- A text starts with its first line. -/
theorem prefix_of_head_feedLines {chars raw : List Char} (first : raw ∈ (feedLines chars).head?) :
    raw <+: chars := by
  rw [← intercalate_feedLines chars]
  cases lines : feedLines chars with
  | nil => exact absurd lines (feedLines_ne_nil chars)
  | cons line others =>
    rw [lines] at first
    cases first
    cases others <;> simp [List.intercalate]

/-- The end of a text stands further down behind some rows. -/
theorem documentEnd_down (file : String) (rows lines : List (List Char)) (nonempty : lines ≠ []) :
    documentEnd file (rows ++ lines) = (documentEnd file lines).down rows.length := by
  unfold documentEnd
  rw [down_tokenAt, List.getLast?_append_of_ne_nil rows nonempty, List.length_append, Nat.add_comm]

/-! ## The rows of a fenced block -/

/-- The backticks that a fence is made of. -/
def backticks (count : Nat) : List Char := List.replicate count '\x60'

theorem mem_backticks {count : Nat} {char : Char} (member : char ∈ backticks count) :
    char = '\x60' := List.eq_of_mem_replicate member

theorem backticks_eq_cons {count : Nat} (positive : 1 ≤ count) :
    backticks count = '\x60' :: backticks (count - 1) := by
  rw [backticks, backticks, ← List.replicate_succ, Nat.sub_add_cancel positive]

/-- A row closes a block if and only if nothing but enough backticks is left of it when it is
trimmed. -/
theorem closesFence_iff {ticks : Nat} :
    closesFence ticks row = true ↔
      ∃ count, ticks ≤ count ∧ 1 ≤ count ∧ trim row = backticks count := by
  unfold closesFence
  simp only [Bool.and_eq_true, decide_eq_true_eq, Bool.not_eq_true', List.isEmpty_eq_false_iff]
  constructor
  · rintro ⟨⟨enough, some⟩, all⟩
    refine ⟨(trim row).length, enough, List.length_pos_of_ne_nil some, ?_⟩
    exact List.eq_replicate_of_mem fun char member =>
      of_decide_eq_true (List.all_eq_true.mp all char member)
  · rintro ⟨count, enough, positive, content⟩
    rw [content, backticks, List.length_replicate]
    refine ⟨⟨enough, ?_⟩, ?_⟩
    · intro none
      have zero := congrArg List.length none
      rw [List.length_replicate, List.length_nil] at zero
      omega
    · rw [List.all_eq_true]
      intro char member
      exact decide_eq_true (List.eq_of_mem_replicate member)

/-- Backticks stand on a row of their own. -/
theorem isRow_backticks {count : Nat} (positive : 1 ≤ count) : IsRow (backticks count) := by
  constructor
  · rw [isCleanText_iff]
    intro char member
    rw [mem_backticks member]
    decide
  · refine ⟨backticks (count - 1), '\x60', ?_, by decide⟩
    rw [backticks, backticks, ← List.replicate_succ', Nat.sub_add_cancel positive]

/-- Nothing is trimmed from backticks. -/
theorem trim_backticks {count : Nat} (positive : 1 ≤ count) :
    trim (backticks count) = backticks count := by
  obtain ⟨front, last, ends, plain⟩ := (isRow_backticks positive).ends
  exact trim_of_ends (backticks_eq_cons positive) (by decide) ends plain

section Opener

variable {ticks : Nat} {info : List Char}

/-- An opening fence stands on a row of its own. -/
theorem isRow_opener (positive : 1 ≤ ticks) (trimmed : trim info = info)
    (clean : isCleanText info = true) : IsRow (backticks ticks ++ info) := by
  have fence := isRow_backticks positive
  constructor
  · rw [isCleanText_append, fence.clean, clean]
    rfl
  · by_cases bare : info = []
    · rw [bare, List.append_nil]
      exact fence.ends
    · obtain ⟨_, front, last, ends, plain⟩ := ends_of_trim bare trimmed
      exact ⟨backticks ticks ++ front, last, by rw [ends, List.append_assoc], plain⟩

/-- The backticks and the info text of an opening fence are its pieces. -/
theorem fencePieces?_opener (enough : 3 ≤ ticks) (trimmed : trim info = info)
    (apart : info.head? ≠ some '\x60') :
    fencePieces? (backticks ticks ++ info) = some ⟨0, ticks, info⟩ := by
  have starts : backticks ticks ++ info = '\x60' :: (backticks (ticks - 1) ++ info) := by
    rw [backticks_eq_cons (by omega), List.cons_append]
  have noIndent : (backticks ticks ++ info).takeWhile isGap = [] := by
    rw [starts]
    exact List.takeWhile_cons_of_neg (by decide)
  have all : ∀ char ∈ backticks ticks, isBacktick char = true := by
    intro char member
    rw [mem_backticks member]
    decide
  -- no backtick opens the info text, so none of it counts as fence
  have stops : info.takeWhile isBacktick = [] := by
    cases info with
    | nil => rfl
    | cons first others =>
      refine List.takeWhile_cons_of_neg fun tick => apart ?_
      rw [of_decide_eq_true tick]
      rfl
  have fence : (backticks ticks ++ info).takeWhile isBacktick = backticks ticks := by
    rw [List.takeWhile_append_of_pos all, stops, List.append_nil]
  have width : (backticks ticks).length = ticks := List.length_replicate
  unfold fencePieces?
  simp only [noIndent, List.length_nil, List.drop_zero, fence, width, List.drop_left' width,
    trimmed]
  simp [enough]

/-- A row of backticks and an info text opens a fenced block. -/
theorem ofLine_opener (isFirst : Bool) (enough : 3 ≤ ticks) (trimmed : trim info = info)
    (apart : info.head? ≠ some '\x60') :
    LineShape.ofLine isFirst (backticks ticks ++ info) = .fence ⟨0, ticks, info⟩ := by
  have starts : backticks ticks ++ info = '\x60' :: (backticks (ticks - 1) ++ info) := by
    rw [backticks_eq_cons (by omega), List.cons_append]
  have pieces := fencePieces?_opener enough trimmed apart
  rw [starts] at pieces ⊢
  unfold LineShape.ofLine
  rw [pieces]
  simp [show isBlank '\x60' = false by decide]

end Opener

/-- The lines of code are numbered from the first one on. -/
theorem codeLines_eq_mapIdx (rows : List (List Char)) :
    codeLines file number rows =
      rows.mapIdx fun index row => tokenAt file (index + number) .codeLine row 0 row.length := by
  induction rows generalizing number with
  | nil => rfl
  | cons row rows ih =>
    rw [codeLines, ih, List.mapIdx_cons, Nat.zero_add]
    congr 2
    funext index row
    rw [Nat.add_right_comm, Nat.add_assoc]

/-- The tokens of a fenced block without white space around its fences. -/
theorem fencedTokens_opener (file : String) {opener info : List Char} {ticks closing : Nat}
    (isOpener : IsRow opener) (positive : 1 ≤ closing) (lines : List (List Char)) :
    fencedTokens file 1 opener ⟨0, ticks, info⟩ lines (backticks closing) =
      tokenAt file 1 .fenceMarker info 0 opener.length :: lineEndToken file 1 opener ::
        (lines.mapIdx (fun index line => tokenAt file (index + 2) .codeLine line 0 line.length) ++
          [tokenAt file (lines.length + 2) .fenceMarker [] 0 closing,
            lineEndToken file (lines.length + 2) (backticks closing)]) := by
  have noIndent : indentWidth (backticks closing) = 0 := by
    rw [indentWidth, backticks_eq_cons positive, List.takeWhile_cons_of_neg (by decide)]
    rfl
  have width : (backticks closing).length = closing := List.length_replicate
  unfold fencedTokens shapeTokens closingFence
  rw [isOpener.trimEnd_eq, trim_backticks positive, noIndent, width, codeLines_eq_mapIdx,
    Nat.add_comm (1 + 1) lines.length]
  rfl

/-! ## The tokens of a text behind a fenced block -/

/-- The tokens of a text behind the rows of a fenced block are those of the block, and those of the
text on its own further down. -/
theorem documentTokens_block (file : String) {opener closer : List Char} {pieces : FencePieces}
    {lines : List (List Char)} (isOpener : IsRow opener) (isCloser : IsRow closer)
    (shaped : LineShape.ofLine (1 = 1) opener = .fence pieces)
    (isCode : ∀ line ∈ lines, IsCodeRow pieces.ticks line)
    (closes : closesFence pieces.ticks closer = true)
    (text : String) (plain : ¬['#', '!'] <+: text.toList) :
    documentTokens file
        (String.ofList (['\n'].intercalate (opener :: (lines ++ [closer, text.toList])))) =
      match documentTokens file text with
      | .ok tokens =>
        .ok (fencedTokens file 1 opener pieces lines closer ++
          tokens.map (Token.down (lines.length + 2)))
      | .error diagnostic => .error (diagnostic.down (lines.length + 2)) := by
  have noFeed : ∀ row ∈ opener :: (lines ++ [closer]), '\n' ∉ row := by
    intro row member feed
    rw [List.mem_cons, List.mem_append, List.mem_singleton] at member
    rcases member with rfl | inLines | rfl
    · exact isOpener.noFeed feed
    · exact absurd ((isCleanText_iff row).mp (isCode row inLines).clean '\n' feed) (by decide)
    · exact isCloser.noFeed feed
  have rows : feedLines (['\n'].intercalate (opener :: (lines ++ [closer, text.toList]))) =
      opener :: (lines ++ closer :: feedLines text.toList) := by
    have whole := feedLines_intercalate_concat noFeed text.toList
    simpa using whole
  have first : (1 : Nat) = 1 → ∀ raw ∈ (feedLines text.toList).head?,
      ¬['#', '!'] <+: dropReturn raw := by
    intro _ raw first opens
    exact plain (((opens_dropReturn_iff raw).mp opens).trans (prefix_of_head_feedLines first))
  -- behind the block the rows are those of the text, further down by the rows of the block
  have behind : tokensOfLines file none (1 + 1 + lines.length + 1) (feedLines text.toList) =
      lexedDown (lines.length + 2) (tokensOfLines file none 1 (feedLines text.toList)) := by
    rw [← tokensOfLines_down none first le_rfl]
    congr 1
    omega
  have finish : documentEnd file (opener :: (lines ++ closer :: feedLines text.toList)) =
      (documentEnd file (feedLines text.toList)).down (lines.length + 2) := by
    have moved := documentEnd_down file (opener :: (lines ++ [closer]))
      (feedLines text.toList) (feedLines_ne_nil _)
    simpa using moved
  rw [documentTokens_eq, documentTokens_eq, String.toList_ofList, rows, finish,
    tokensOfLines_fenced isOpener isCloser shaped isCode closes, behind]
  cases tokensOfLines file none 1 (feedLines text.toList) with
  | error diagnostic => rfl
  | ok tokens =>
    show Except.ok _ = Except.ok _
    simp

/-- A fenced block quotes its rows: whatever stands on them, if none of them is trimmed to enough
backticks, each becomes a line of code that holds the row. The text behind the block becomes the
tokens, or fails with the error, that it does on its own, further down by the number of rows that
the block takes up. -/
theorem documentTokens_fenced (file : String) (ticks closing : Nat) (enough : 3 ≤ ticks)
    (closes : ticks ≤ closing) (info : List Char) (trimmed : trim info = info)
    (allowed : ∀ char ∈ info, isForbidden char = false) (apart : info.head? ≠ some '\x60')
    (lines : List (List Char))
    (clean : ∀ line ∈ lines, ∀ char ∈ line, isForbidden char = false)
    (kept : ∀ line ∈ lines, line.getLast? ≠ some '\r')
    (inner : ∀ line ∈ lines, ∀ count, ticks ≤ count → trim line ≠ List.replicate count '\x60')
    (text : String) (plain : ¬['#', '!'] <+: text.toList) :
    let opener := List.replicate ticks '\x60' ++ info
    let closer := List.replicate closing '\x60'
    documentTokens file
        (String.ofList (['\n'].intercalate (opener :: (lines ++ [closer, text.toList])))) =
      match documentTokens file text with
      | .ok tokens =>
        .ok (tokenAt file 1 .fenceMarker info 0 opener.length :: lineEndToken file 1 opener ::
          (lines.mapIdx (fun index line => tokenAt file (index + 2) .codeLine line 0 line.length) ++
            tokenAt file (lines.length + 2) .fenceMarker [] 0 closing ::
            lineEndToken file (lines.length + 2) closer ::
            tokens.map (Token.down (lines.length + 2))))
      | .error diagnostic => .error (diagnostic.down (lines.length + 2)) := by
  intro opener closer
  have isOpener : IsRow opener :=
    isRow_opener (by omega) trimmed ((isCleanText_iff info).mpr allowed)
  have isCloser : IsRow closer := isRow_backticks (by omega)
  -- a row that is trimmed to enough backticks would close the block
  have isCode : ∀ line ∈ lines, IsCodeRow ticks line := by
    intro line member
    refine ⟨(isCleanText_iff line).mpr (clean line member), if_neg (kept line member), ?_⟩
    rw [← Bool.not_eq_true, closesFence_iff]
    rintro ⟨count, many, _, content⟩
    exact inner line member count many content
  have closed : 1 ≤ closing := by omega
  have ends : closesFence ticks closer = true :=
    closesFence_iff.mpr ⟨closing, closes, closed, trim_backticks closed⟩
  have block : fencedTokens file 1 opener ⟨0, ticks, info⟩ lines closer = _ :=
    fencedTokens_opener file isOpener closed lines
  rw [documentTokens_block file isOpener isCloser (ofLine_opener _ enough trimmed apart) isCode
    ends text plain, block]
  cases documentTokens file text with
  | error diagnostic => rfl
  | ok tokens =>
    show Except.ok _ = Except.ok _
    simp [closer, backticks]

/-- A shorter fence, a directive and a blank row between fences, and a heading behind them. -/
theorem documentTokens_fenced_shorter :
    let lines := ["\x60\x60\x60", "#!", " "].map String.toList
    (∀ line ∈ lines, ∀ char ∈ line, isForbidden char = false) ∧
    (∀ line ∈ lines, line.getLast? ≠ some '\r') ∧
    (∀ line ∈ lines, ∀ count, 4 ≤ count → trim line ≠ List.replicate count '\x60') ∧
    ¬['#', '!'] <+: "# b".toList ∧
    ∃ tokens, documentTokens "t" "# b" = .ok tokens ∧ documentTokens "t"
      "\x60\x60\x60\x60sh\n\x60\x60\x60\n#!\n \n\x60\x60\x60\x60\x60\n# b" =
        .ok (tokenAt "t" 1 .fenceMarker ['s', 'h'] 0 6 ::
          tokenAt "t" 1 .newline ['\n'] 6 1 ::
          tokenAt "t" 2 .codeLine "\x60\x60\x60".toList 0 3 ::
          tokenAt "t" 3 .codeLine ['#', '!'] 0 2 ::
          tokenAt "t" 4 .codeLine [' '] 0 1 ::
          tokenAt "t" 5 .fenceMarker [] 0 5 ::
          tokenAt "t" 5 .newline ['\n'] 5 1 ::
          tokens.map (Token.down 5)) := by
  intro lines
  have clean : ∀ line ∈ lines, ∀ char ∈ line, isForbidden char = false := by
    have all : lines.all isCleanText = true := by cbv
    intro line member
    exact (isCleanText_iff line).mp (List.all_eq_true.mp all line member)
  have allowed : ∀ char ∈ ['s', 'h'], isForbidden char = false :=
    (isCleanText_iff _).mp (by cbv)
  have kept : ∀ line ∈ lines, line.getLast? ≠ some '\r' := by decide
  have inner : ∀ line ∈ lines, ∀ count, 4 ≤ count → trim line ≠ List.replicate count '\x60' := by
    -- a line is shorter than the fence or holds another character than backticks
    have short : ∀ line ∈ lines, (trim line).length < 4 ∨ '#' ∈ trim line := by decide
    intro line member count many content
    rcases short line member with few | marked
    · rw [content, List.length_replicate] at few
      omega
    · rw [content] at marked
      exact absurd (List.eq_of_mem_replicate marked) (by decide)
  have plain : ¬['#', '!'] <+: "# b".toList := by decide
  have reads := documentTokens_fenced "t" 4 5 (by decide) (by decide) ['s', 'h'] (by decide)
    allowed (by decide) lines clean kept inner "# b" plain
  refine ⟨clean, kept, inner, plain, ?_⟩
  cases alone : documentTokens "t" "# b" with
  | error diagnostic =>
    have fails : (documentTokens "t" "# b").isOk = true := by cbv
    rw [alone] at fails
    cases fails
  | ok tokens =>
    rw [alone] at reads
    exact ⟨tokens, rfl, reads⟩

end DocGrammar
