import DocGrammar.Proofs.Documents.Single

/-! # Documents of one fenced block

A text that is nothing but a fenced block is a single section: its rows are kept as they are, and
the text of the block is made up of them again.

* **`IsCodeRow`** — a row that is kept as it is between fences.
* **`tokensOfLines_fenced`**, **`rowTokens_fenced`** — the tokens of the rows of a fenced block.
* **`exists_readsSection_fenced`** — the section of a fenced block. -/

namespace DocGrammar

/-! ## Rows between fences -/

/-- Whether a row stands between fences of some backticks as it is. -/
structure IsCodeRow (ticks : Nat) (row : List Char) : Prop where
  /-- It holds no forbidden character. -/
  clean : isCleanText row = true
  /-- No carriage return is dropped from it. -/
  kept : dropReturn row = row
  /-- It does not close the block. -/
  inner : closesFence ticks row = false

/-- A row that ends with neither white space nor a backtick stands between fences as it is. -/
theorem isCodeRow_of_last {row front : List Char} {last : Char} (clean : isCleanText row = true)
    (ends : row = front ++ [last]) (plain : isBlank last = false) (other : isBacktick last = false)
    (ticks : Nat) : IsCodeRow ticks row := by
  refine ⟨clean, IsRow.dropReturn_eq ⟨clean, front, last, ends, plain⟩, ?_⟩
  -- the last character is no white space, so it is among the trimmed content
  have held : last ∈ trim row := by
    obtain ⟨tail, whole, dropped⟩ := dropTailWhile_append isBlank (row.dropWhile isBlank)
    have member : last ∈ row.dropWhile isBlank := by
      have inside : last ∈ row.takeWhile isBlank ++ row.dropWhile isBlank := by
        rw [List.takeWhile_append_dropWhile, ends]
        exact List.mem_append_right _ List.mem_cons_self
      refine (List.mem_append.mp inside).resolve_left fun blank => ?_
      rw [List.mem_takeWhile_imp blank] at plain
      exact Bool.noConfusion plain
    rw [whole, List.mem_append] at member
    refine member.resolve_right fun blank => ?_
    rw [dropped last blank] at plain
    exact Bool.noConfusion plain
  have mixed : (trim row).all isBacktick = false := by
    refine Bool.eq_false_iff.mpr fun all => ?_
    rw [List.all_eq_true.mp all last held] at other
    exact Bool.noConfusion other
  unfold closesFence
  dsimp only
  rw [mixed, Bool.and_false]

/-- The tokens of the rows between fences, from line `number` on. -/
def codeLines (file : String) (number : Nat) : List (List Char) → List Token
  | [] => []
  | row :: others =>
    tokenAt file number .codeLine row 0 row.length :: codeLines file (number + 1) others

variable {file : String} {number ticks : Nat} {rows others : List (List Char)}

theorem kind_of_codeLines : ∀ token ∈ codeLines file number rows, token.kind = .codeLine := by
  induction rows generalizing number with
  | nil => exact List.forall_mem_nil _
  | cons row rows ih => exact List.forall_mem_cons.mpr ⟨rfl, ih⟩

/-- The lines of code hold the rows. -/
theorem map_value_codeLines :
    (codeLines file number rows).map Token.value = rows.map String.ofList := by
  induction rows generalizing number with
  | nil => rfl
  | cons row rows ih =>
    rw [codeLines, List.map_cons, List.map_cons, ih]
    rfl

/-- A clean row becomes its tokens, before those of the rows behind it. -/
theorem tokensOfLines_row {row : List Char} (kept : dropReturn row = row)
    (clean : isCleanText row = true) (openFence : Option Nat) :
    tokensOfLines file openFence number (row :: others) =
      (tokensOfLines file (lineTokens file number row openFence).2 (number + 1) others).map
        ((lineTokens file number row openFence).1 ++ ·) := by
  have allowed : forbiddenCharacter? file number (dropReturn row) = none := by
    rw [kept, forbiddenCharacter?_of_clean clean]
  rw [tokensOfLines_of_allowed openFence others allowed, kept]

/-- Rows between fences become lines of code. -/
theorem tokensOfLines_codeRows (inner : ∀ row ∈ rows, IsCodeRow ticks row) :
    tokensOfLines file (some ticks) number (rows ++ others) =
      (tokensOfLines file (some ticks) (number + rows.length) others).map
        (codeLines file number rows ++ ·) := by
  induction rows generalizing number with
  | nil =>
    rw [List.nil_append, List.length_nil, Nat.add_zero]
    cases tokensOfLines file (some ticks) number others <;> rfl
  | cons row rows ih =>
    obtain ⟨isRow, inner⟩ := List.forall_mem_cons.mp inner
    have tokens : lineTokens file number row (some ticks) =
        ([tokenAt file number .codeLine row 0 row.length], some ticks) := by
      unfold lineTokens
      dsimp only
      rw [isRow.inner, if_neg Bool.false_ne_true]
    rw [List.cons_append, tokensOfLines_row isRow.kept isRow.clean, tokens, ih inner,
      List.length_cons, Nat.add_comm rows.length, ← Nat.add_assoc]
    cases tokensOfLines file (some ticks) (number + 1 + rows.length) others <;> rfl

/-! ## Fenced blocks -/

section Blocks

variable {opener closer : List Char} {pieces : FencePieces}

/-- The token of a closing fence. -/
def closingFence (file : String) (number : Nat) (row : List Char) : Token :=
  tokenAt file number .fenceMarker [] (indentWidth row) (trim row).length

/-- The tokens of the rows of a fenced block. -/
def fencedTokens (file : String) (number : Nat) (opener : List Char) (pieces : FencePieces)
    (rows : List (List Char)) (closer : List Char) : List Token :=
  shapeTokens file number opener (.fence pieces) ++ (codeLines file (number + 1) rows ++
    [closingFence file (number + 1 + rows.length) closer,
      lineEndToken file (number + 1 + rows.length) closer])

/-- The rows of a fenced block become its tokens, before those of the rows behind it. -/
theorem tokensOfLines_fenced (isOpener : IsRow opener) (isCloser : IsRow closer)
    (shaped : LineShape.ofLine (number = 1) opener = .fence pieces)
    (inner : ∀ row ∈ rows, IsCodeRow pieces.ticks row)
    (closes : closesFence pieces.ticks closer = true) :
    tokensOfLines file none number (opener :: (rows ++ closer :: others)) =
      (tokensOfLines file none (number + 1 + rows.length + 1) others).map
        (fencedTokens file number opener pieces rows closer ++ ·) := by
  have opening : lineTokens file number opener none =
      (shapeTokens file number opener (.fence pieces), some pieces.ticks) := by
    unfold lineTokens
    rw [shaped]
  have closing : lineTokens file (number + 1 + rows.length) closer (some pieces.ticks) =
      ([closingFence file (number + 1 + rows.length) closer,
        lineEndToken file (number + 1 + rows.length) closer], none) := by
    unfold lineTokens
    dsimp only
    rw [closes, if_pos rfl]
    rfl
  rw [tokensOfLines_row isOpener.dropReturn_eq isOpener.clean, opening,
    tokensOfLines_codeRows inner, tokensOfLines_row isCloser.dropReturn_eq isCloser.clean, closing]
  cases tokensOfLines file none (number + 1 + rows.length + 1) others with
  | error diagnostic => rfl
  | ok behind =>
    simp only [Except.map, fencedTokens, List.append_assoc]

/-- The rows of a fenced block become its tokens. -/
theorem rowTokens_fenced (isOpener : IsRow opener) (isCloser : IsRow closer)
    (shaped : LineShape.ofLine (number = 1) opener = .fence pieces)
    (inner : ∀ row ∈ rows, IsCodeRow pieces.ticks row)
    (closes : closesFence pieces.ticks closer = true) :
    RowTokens file number (opener :: (rows ++ [closer]))
      (fencedTokens file number opener pieces rows closer) := by
  intro later behind outcome
  have next : tokensOfLines file none (number + 1 + rows.length + 1) later = .ok behind := by
    rw [← outcome, List.length_cons, List.length_append, List.length_singleton]
    congr 1
    omega
  rw [List.cons_append, List.append_assoc, List.singleton_append,
    tokensOfLines_fenced isOpener isCloser shaped inner closes, next]
  rfl

namespace Draft

/-- Lines of code are gathered behind the opening fence. -/
theorem sections_code (draft : Draft) (marker : Token) {lines : List Token}
    (isCode : ∀ token ∈ lines, token.kind = .codeLine) (found rest : List Token) :
    draft.sections (.fence marker found) (lines ++ rest) =
      draft.sections (.fence marker (found ++ lines)) rest := by
  induction lines generalizing found with
  | nil => rw [List.append_nil, List.nil_append]
  | cons line lines ih =>
    obtain ⟨kind, isCode⟩ := List.forall_mem_cons.mp isCode
    have stepped : draft.step line (.fence marker found) =
        .ok (.fence marker (found ++ [line]), draft) := by
      unfold step
      rw [kind]
    rw [List.cons_append, sections_cons (by rw [kind]; exact TokenKind.noConfusion) stepped,
      ih isCode, List.append_assoc, List.singleton_append]

/-- The tokens of a fenced block add the block. -/
theorem becomes_fenced (draft : Draft) (file : String) (number : Nat) (opener : List Char)
    (pieces : FencePieces) (rows : List (List Char)) (closer : List Char) :
    ∃ block : FencedBlock, block.info = String.ofList pieces.info ∧
      block.lines = codeLines file (number + 1) rows ∧
      draft.Becomes (fencedTokens file number opener pieces rows closer)
        (draft.addItem (.fenced block)) := by
  refine ⟨⟨tokenAt file number .fenceMarker pieces.info pieces.indent
      ((trimEnd opener).length - pieces.indent), codeLines file (number + 1) rows,
      some (closingFence file (number + 1 + rows.length) closer)⟩, rfl, rfl, fun rest => ?_⟩
  show draft.sections .prose (_ :: lineEndToken file number opener ::
    ((codeLines file (number + 1) rows ++ [_, _]) ++ rest)) = _
  rw [sections_cons TokenKind.noConfusion rfl, sections_cons TokenKind.noConfusion rfl,
    List.append_assoc, sections_code draft _ kind_of_codeLines]
  show draft.sections _ (_ :: lineEndToken file (number + 1 + rows.length) closer :: rest) = _
  rw [sections_cons TokenKind.noConfusion rfl, sections_cons TokenKind.noConfusion rfl]
  rfl

end Draft

/-- A fenced block is a single section, and its text is made up of its rows. -/
theorem exists_readsSection_fenced (file : String) (isOpener : IsRow opener)
    (isCloser : IsRow closer) (shaped : LineShape.ofLine true opener = .fence pieces)
    (inner : ∀ row ∈ rows, IsCodeRow pieces.ticks row)
    (closes : closesFence pieces.ticks closer = true) :
    ∃ block : FencedBlock,
      ReadsSection file (String.ofList (['\n'].intercalate (opener :: (rows ++ [closer]))))
        ⟨none, [.fenced block], none⟩ ∧
      block.info = String.ofList pieces.info ∧
      block.text = String.ofList (['\n'].intercalate rows) := by
  obtain ⟨block, info, lines, adds⟩ :=
    Draft.empty.becomes_fenced file 1 opener pieces rows closer
  have read : RowTokens file 1 (opener :: (rows ++ [closer])) _ :=
    rowTokens_fenced isOpener isCloser shaped inner closes
  refine ⟨block, ?_, info, ?_⟩
  · -- the rows hold no line ends, and none of them is a directive
    have noFeed : ∀ row ∈ opener :: (rows ++ [closer]), '\n' ∉ row := by
      refine List.forall_mem_cons.mpr ⟨isOpener.noFeed, List.forall_mem_append.mpr
        ⟨fun row member feed => ?_, List.forall_mem_singleton.mpr isCloser.noFeed⟩⟩
      exact absurd ((isCleanText_iff row).mp (inner row member).clean '\n' feed) (by decide)
    refine read.exists_readDocument noFeed ?_ (· = [_]) fun last ends =>
      ⟨_, (adds [last]).trans (Draft.sections_last ends), rfl⟩
    refine List.forall_mem_append.mpr ⟨kind_ne_shebang_of_shapeTokens _ _ _ LineShape.noConfusion,
      List.forall_mem_append.mpr ⟨fun token member => ?_, ?_⟩⟩
    · rw [kind_of_codeLines token member]
      exact TokenKind.noConfusion
    · exact List.forall_mem_cons.mpr
        ⟨TokenKind.noConfusion, List.forall_mem_singleton.mpr TokenKind.noConfusion⟩
  · have same : (rows.map String.ofList).map String.toList = rows := by
      rw [List.map_map]
      exact (List.map_congr_left fun row _ => String.toList_ofList).trans (List.map_id' rows)
    rw [← String.toList_inj, FencedBlock.text, lines, map_value_codeLines,
      String.toList_intercalate, same]
    exact String.toList_ofList.symm

end Blocks

end DocGrammar
