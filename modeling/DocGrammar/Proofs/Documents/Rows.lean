import DocGrammar.Proofs.Documents.Lexing
import DocGrammar.Proofs.Text.Trim
import DocGrammar.Proofs.Tokens.Lines
import Mathlib.Data.List.TakeWhile

/-! # Rows of a document

A document is written as rows with line feeds between them. A row that holds no forbidden character
and does not end with white space becomes the tokens of its shape, whatever rows stand around it.

* **`feedLines_intercalate`** — the rows of a text are read back.
* **`ofLine_heading`**, **`ofLine_plain`** — the shapes of headings and lines of text.
* **`RowTokens`** — the tokens that some rows become wherever they stand. -/

namespace DocGrammar

/-! ## Lines of a text -/

/-- A line without line feeds is read up to the first line feed behind it. -/
theorem feedLines_append {line : List Char} (noFeed : '\n' ∉ line) (rest : List Char) :
    feedLines (line ++ '\n' :: rest) = line :: feedLines rest := by
  induction line with
  | nil =>
    rw [List.nil_append, feedLines]
    exact if_pos rfl
  | cons char line ih =>
    have other : char ≠ '\n' := fun same => noFeed (same ▸ List.mem_cons_self)
    have inner := ih fun member => noFeed (List.mem_cons_of_mem _ member)
    rw [List.cons_append, feedLines, inner]
    exact if_neg other

/-- A text without line feeds is a line. -/
theorem feedLines_of_noFeed {line : List Char} (noFeed : '\n' ∉ line) :
    feedLines line = [line] := by
  induction line with
  | nil => rfl
  | cons char line ih =>
    have other : char ≠ '\n' := fun same => noFeed (same ▸ List.mem_cons_self)
    have inner := ih fun member => noFeed (List.mem_cons_of_mem _ member)
    rw [feedLines, inner]
    exact if_neg other

/-- The lines of rows with line feeds between them are the rows. -/
theorem feedLines_intercalate {rows : List (List Char)} (nonempty : rows ≠ [])
    (noFeed : ∀ row ∈ rows, '\n' ∉ row) : feedLines (['\n'].intercalate rows) = rows := by
  induction rows with
  | nil => exact absurd rfl nonempty
  | cons row others ih =>
    have here := noFeed row List.mem_cons_self
    cases others with
    | nil =>
      have single : ['\n'].intercalate [row] = row := by simp [List.intercalate]
      rw [single]
      exact feedLines_of_noFeed here
    | cons next more =>
      have joined : ['\n'].intercalate (row :: next :: more) =
          row ++ '\n' :: ['\n'].intercalate (next :: more) := by
        simp [List.intercalate]
      rw [joined, feedLines_append here,
        ih (List.cons_ne_nil _ _) fun other member => noFeed other (List.mem_cons_of_mem _ member)]

/-! ## Forbidden characters -/

/-- A clean row is refused for none of its characters. -/
theorem forbiddenCharacter?_of_clean {row : List Char} (clean : isCleanText row = true)
    (file : String) (number : Nat) : forbiddenCharacter? file number row = none := by
  have quiet := (isCleanText_iff row).mp clean
  have nothing : (row ++ []).dropWhile (!isForbidden ·) = [] := by
    refine List.dropWhile_append_of_pos fun char member => ?_
    rw [quiet char member]
    rfl
  rw [List.append_nil] at nothing
  unfold forbiddenCharacter?
  rw [nothing]

/-- A row holds no forbidden character if it is not refused for one. -/
theorem isForbidden_of_forbiddenCharacter? {row : List Char} {file : String} {number : Nat}
    (clean : forbiddenCharacter? file number row = none) :
    ∀ char ∈ row, isForbidden char = false := by
  unfold forbiddenCharacter? at clean
  split at clean
  · next nothing =>
    intro char member
    simpa using List.dropWhile_eq_nil_iff.mp nothing char member
  · cases clean

/-- No row of a text whose document tokens are read holds a forbidden character. -/
theorem isForbidden_of_tokensOfLines {file : String} {openFence : Option Nat} {number : Nat}
    {rows : List (List Char)} {tokens : List Token}
    (read : tokensOfLines file openFence number rows = .ok tokens) :
    ∀ row ∈ rows, ∀ char ∈ dropReturn row, isForbidden char = false := by
  induction rows generalizing openFence number tokens with
  | nil => exact List.forall_mem_nil _
  | cons raw others ih =>
    obtain ⟨allowed, _, below, _⟩ := exists_of_tokensOfLines_cons read
    exact List.forall_mem_cons.mpr ⟨isForbidden_of_forbiddenCharacter? allowed, ih below⟩

/-- Rows without forbidden characters become tokens. -/
theorem exists_tokensOfLines {rows : List (List Char)}
    (clean : ∀ row ∈ rows, isCleanText (dropReturn row) = true) (file : String)
    (openFence : Option Nat) (number : Nat) :
    ∃ tokens, tokensOfLines file openFence number rows = .ok tokens := by
  induction rows generalizing openFence number with
  | nil => exact ⟨[], rfl⟩
  | cons raw others ih =>
    obtain ⟨behind, reads⟩ := ih (fun row member => clean row (List.mem_cons_of_mem _ member))
      (lineTokens file number (dropReturn raw) openFence).2 (number + 1)
    refine ⟨(lineTokens file number (dropReturn raw) openFence).1 ++ behind, ?_⟩
    rw [tokensOfLines_of_allowed _ _
      (forbiddenCharacter?_of_clean (clean raw List.mem_cons_self) file number), reads]
    rfl

/-! ## Rows -/

/-- Whether a text can stand on a row of its own: it is clean and does not end with white space. -/
structure IsRow (row : List Char) : Prop where
  /-- It holds no forbidden character. -/
  clean : isCleanText row = true
  /-- It ends with a character that is not white space. -/
  ends : ∃ front last, row = front ++ [last] ∧ isBlank last = false

namespace IsRow

variable {row : List Char}

theorem noFeed (isRow : IsRow row) : '\n' ∉ row := by
  intro member
  have allowed := (isCleanText_iff row).mp isRow.clean '\n' member
  exact absurd allowed (by decide)

/-- No carriage return is dropped from a row. -/
theorem dropReturn_eq (isRow : IsRow row) : dropReturn row = row := by
  obtain ⟨front, last, rfl, plain⟩ := isRow.ends
  refine if_neg ?_
  rw [List.getLast?_concat, Option.some.injEq]
  rintro rfl
  exact absurd plain (by decide)

theorem trimEnd_eq (isRow : IsRow row) : trimEnd row = row := by
  obtain ⟨front, last, rfl, plain⟩ := isRow.ends
  exact dropTailWhile_of_last front plain

theorem not_allBlank (isRow : IsRow row) : row.all isBlank = false := by
  obtain ⟨front, last, rfl, plain⟩ := isRow.ends
  rw [List.all_append, List.all_cons, plain, Bool.false_and, Bool.and_false]

end IsRow

/-! ## Shapes -/

/-- The text of a heading. -/
def headingRow (level : Nat) (title : List Char) : List Char :=
  List.replicate level '#' ++ ' ' :: title

/-- A title: it neither starts nor ends with white space. -/
structure IsTitle (title : List Char) : Prop extends IsRow title where
  /-- It starts with a character that is not white space. -/
  starts : ∃ first others, title = first :: others ∧ isBlank first = false

theorem isGap_of_isBlank {char : Char} (plain : isBlank char = false) : isGap char = false := by
  rw [Bool.eq_false_iff]
  intro gap
  simp only [isGap, Bool.or_eq_true, decide_eq_true_eq] at gap
  rcases gap with rfl | rfl
  · exact absurd plain (by decide)
  · exact absurd plain (by decide)

theorem isRow_headingRow {title : List Char} (isTitle : IsTitle title) (level : Nat) :
    IsRow (headingRow level title) := by
  obtain ⟨front, last, whole, plain⟩ := isTitle.ends
  refine ⟨?_, List.replicate level '#' ++ ' ' :: front, last, ?_, plain⟩
  · rw [headingRow, isCleanText_append, isCleanText_cons, isTitle.clean, isCleanText_iff _ |>.mpr]
    · decide
    · intro char member
      rw [List.eq_of_mem_replicate member]
      decide
  · rw [headingRow, whole, List.append_assoc, List.cons_append]

/-- The pieces of a heading are its level and its title. -/
theorem headingPieces?_headingRow {title : List Char} (isTitle : IsTitle title) {level : Nat}
    (positive : 1 ≤ level) (bounded : level ≤ 6) :
    headingPieces? (headingRow level title) = some ⟨level, 1, title⟩ := by
  obtain ⟨first, others, rfl, plain⟩ := isTitle.starts
  have signs : (headingRow level (first :: others)).takeWhile (· = '#') =
      List.replicate level '#' := by
    rw [headingRow, List.takeWhile_append_of_pos, List.takeWhile_cons_of_neg (by decide),
      List.append_nil]
    intro char member
    rw [List.eq_of_mem_replicate member]
    decide
  have behind : (headingRow level (first :: others)).drop level = ' ' :: first :: others := by
    rw [headingRow, List.drop_left' List.length_replicate]
  have noGap : isGap first = false := isGap_of_isBlank plain
  -- a title starts with a visible character, so the gap is the one blank
  have gap : (' ' :: first :: others).takeWhile isGap = [' '] := by
    rw [List.takeWhile_cons_of_pos (by decide), List.takeWhile_cons_of_neg]
    rw [noGap]
    exact Bool.false_ne_true
  unfold headingPieces?
  rw [signs, List.length_replicate]
  simp only [behind, gap]
  show (if _ then some (⟨level, 1, trimEnd (first :: others)⟩ : HeadingPieces) else none) = _
  rw [isTitle.trimEnd_eq]
  refine if_pos ?_
  simp [positive, bounded, plain]

/-- A heading has the shape of a heading. -/
theorem ofLine_heading {title : List Char} (isTitle : IsTitle title) {level : Nat}
    (positive : 1 ≤ level) (bounded : level ≤ 6) (isFirst : Bool) :
    LineShape.ofLine isFirst (headingRow level title) = .heading ⟨level, 1, title⟩ := by
  have pieces := headingPieces?_headingRow isTitle positive bounded
  have blank := (isRow_headingRow isTitle level).not_allBlank
  obtain ⟨inner, rfl⟩ : ∃ inner, level = inner + 1 := ⟨level - 1, by omega⟩
  have noDirective : ['#', '!'].isPrefixOf (headingRow (inner + 1) title) = false := by
    cases inner with
    | zero => rfl
    | succ inner => rfl
  unfold LineShape.ofLine
  rw [blank, noDirective, Bool.and_false, if_neg Bool.false_ne_true, if_neg Bool.false_ne_true,
    if_pos (by rfl), pieces]

/-- A row that starts with a character of a word is a line of text. -/
theorem ofLine_plain {row others : List Char} {first : Char} (starts : row = first :: others)
    (word : isWordChar first = true) (isFirst : Bool) :
    LineShape.ofLine isFirst row = .plain := by
  -- a character of a word is none of those that other shapes start with
  have apart : ∀ other, isWordChar other = false → first ≠ other := by
    rintro other outside rfl
    rw [word] at outside
    exact Bool.noConfusion outside
  have hash : first ≠ '#' := apart _ (by decide +kernel)
  have hyphen : first ≠ '-' := apart _ (by decide +kernel)
  have tick : isBacktick first = false := decide_eq_false (apart _ (by decide +kernel))
  have noGap : isGap first = false := isGap_of_isBlank (isBlank_of_isWordChar word)
  subst starts
  have blank : (first :: others).all isBlank = false := by
    rw [List.all_cons, isBlank_of_isWordChar word, Bool.false_and]
  have noDirective : ['#', '!'].isPrefixOf (first :: others) = false := by
    simp [List.isPrefixOf, hash.symm]
  have noHeading : (first :: others).head? ≠ some '#' := by simp [hash]
  have indent : (first :: others).takeWhile isGap = [] := by
    rw [List.takeWhile_cons_of_neg]
    rw [noGap]
    exact Bool.false_ne_true
  have ticks : (first :: others).takeWhile isBacktick = [] := by
    rw [List.takeWhile_cons_of_neg]
    rw [tick]
    exact Bool.false_ne_true
  have noFence : fencePieces? (first :: others) = none := by
    unfold fencePieces?
    simp only [indent, List.length_nil, List.drop_zero, ticks]
    rfl
  have noLink : linkPieces? (first :: others) = none := by
    unfold linkPieces?
    simp only [indent, List.length_nil, List.drop_zero]
    split
    · next shape => exact absurd (List.cons.inj shape).1 hyphen
    · rfl
  unfold LineShape.ofLine
  rw [blank, noDirective, Bool.and_false, if_neg Bool.false_ne_true, if_neg Bool.false_ne_true,
    if_neg noHeading, noFence, noLink]

/-! ## Tokens of rows -/

/-- Whether some rows from line `number` on become some tokens, whatever rows stand behind them. -/
def RowTokens (file : String) (number : Nat) (rows : List (List Char)) (tokens : List Token) :
    Prop :=
  ∀ others behind, tokensOfLines file none (number + rows.length) others = .ok behind →
    tokensOfLines file none number (rows ++ others) = .ok (tokens ++ behind)

variable {file : String} {number : Nat} {rows more : List (List Char)} {tokens others : List Token}

theorem rowTokens_nil : RowTokens file number [] [] := fun _ _ outcome => outcome

theorem RowTokens.append (first : RowTokens file number rows tokens)
    (second : RowTokens file (number + rows.length) more others) :
    RowTokens file number (rows ++ more) (tokens ++ others) := by
  intro later behind outcome
  rw [List.length_append, ← Nat.add_assoc] at outcome
  rw [List.append_assoc, List.append_assoc]
  exact first _ _ (second _ _ outcome)

/-- A clean row outside fenced blocks becomes the tokens of its shape. -/
theorem rowTokens_of_clean {row : List Char} (kept : dropReturn row = row)
    (clean : isCleanText row = true) {shape : LineShape}
    (shaped : LineShape.ofLine (number = 1) row = shape)
    (noFence : ∀ pieces, shape ≠ .fence pieces) :
    RowTokens file number [row] (shapeTokens file number row shape) := by
  intro later behind outcome
  have tokens : lineTokens file number row none = (shapeTokens file number row shape, none) := by
    unfold lineTokens
    rw [shaped]
    cases shape with
    | fence pieces => exact absurd rfl (noFence pieces)
    | _ => rfl
  have next : tokensOfLines file none (number + 1) later = .ok behind := outcome
  rw [List.singleton_append, tokensOfLines]
  simp only [kept, forbiddenCharacter?_of_clean clean, tokens, next]
  rfl

/-- A row outside fenced blocks becomes the tokens of its shape. -/
theorem rowTokens_singleton {row : List Char} (isRow : IsRow row) {shape : LineShape}
    (shaped : LineShape.ofLine (number = 1) row = shape)
    (noFence : ∀ pieces, shape ≠ .fence pieces) :
    RowTokens file number [row] (shapeTokens file number row shape) :=
  rowTokens_of_clean isRow.dropReturn_eq isRow.clean shaped noFence

/-- Only the row of a directive becomes a directive. -/
theorem kind_ne_shebang_of_shapeTokens (file : String) (number : Nat) (row : List Char)
    {shape : LineShape} (other : shape ≠ .shebang) :
    ∀ token ∈ shapeTokens file number row shape, token.kind ≠ .shebang := by
  cases shape with
  | shebang => exact absurd rfl other
  | link pieces =>
    intro token member
    simp only [shapeTokens, linkTokens, List.mem_append, List.mem_cons, List.not_mem_nil,
      or_false] at member
    rcases member with ((rfl | rfl | rfl | rfl) | described) | rfl
    case inl.inr =>
      split at described
      · exact absurd described List.not_mem_nil
      · rw [List.mem_singleton.mp described]
        exact TokenKind.noConfusion
    all_goals exact TokenKind.noConfusion
  | _ => simp [shapeTokens, tokenAt, lineEndToken]

/-- An empty row becomes nothing. -/
theorem rowTokens_empty : RowTokens file number [[]] [] := by
  intro later behind outcome
  have next : tokensOfLines file none (number + 1) later = .ok behind := outcome
  rw [List.singleton_append, tokensOfLines]
  show (do return [] ++ (← tokensOfLines file none (number + 1) later)) = _
  rw [next]
  rfl

/-- The tokens of a text are those of its rows, up to the end of the input. -/
theorem RowTokens.exists_documentTokens (read : RowTokens file 1 rows tokens)
    (noFeed : ∀ row ∈ rows, '\n' ∉ row) :
    ∃ last, documentTokens file (String.ofList (['\n'].intercalate rows)) = .ok (tokens ++ [last]) ∧
      last.kind = .endOfInput := by
  have lexed : tokensOfLines file none 1 (feedLines (['\n'].intercalate rows)) = .ok tokens := by
    by_cases empty : rows = []
    · subst empty
      have nothing : Except.ok [] = .ok (tokens ++ []) := read [] [] rfl
      rw [List.append_nil, Except.ok.injEq] at nothing
      rw [← nothing]
      exact rowTokens_empty [] [] rfl
    · have whole := read [] [] rfl
      rw [List.append_nil, List.append_nil] at whole
      rw [feedLines_intercalate empty noFeed, whole]
  have spelled : (String.ofList (['\n'].intercalate rows)).toList = ['\n'].intercalate rows :=
    String.toList_ofList
  rw [← spelled] at lexed
  exact ⟨_, documentTokens_of_tokensOfLines lexed, rfl⟩

/-! ## Tokens of a draft -/

namespace Draft

/-- Whether some tokens between items turn a draft into another, whatever tokens follow. -/
def Becomes (draft : Draft) (tokens : List Token) (next : Draft) : Prop :=
  ∀ rest, draft.sections .prose (tokens ++ rest) = next.sections .prose rest

variable {draft next final : Draft} {tokens more : List Token}

theorem becomes_nil (draft : Draft) : draft.Becomes [] draft := fun _ => rfl

theorem Becomes.append (first : draft.Becomes tokens next) (second : next.Becomes more final) :
    draft.Becomes (tokens ++ more) final := by
  intro rest
  rw [List.append_assoc, first, second]

/-- A token that does not end the input takes its step. -/
theorem sections_cons {token : Token} {region later : Region} {rest : List Token}
    (inner : token.kind ≠ .endOfInput) (stepped : draft.step token region = .ok (later, next)) :
    draft.sections region (token :: rest) = next.sections later rest := by
  rw [sections, if_neg inner, stepped]
  rfl

/-- A document ends with the section being read. -/
theorem sections_last {last : Token} (ends : last.kind = .endOfInput) :
    draft.sections .prose [last] =
      .ok (draft.complete ++ [⟨draft.heading, draft.items, none⟩]) := by
  rw [sections, if_pos ends]
  rfl

/-- The tokens of a line of text add the line, without the white space around it. -/
theorem becomes_line (draft : Draft) (file : String) (number : Nat) (row : List Char) :
    ∃ line : Token, line.value = String.ofList (trim row) ∧
      draft.Becomes (shapeTokens file number row .plain) (draft.addLine line) := by
  refine ⟨tokenAt file number .line (trim row) (indentWidth row) (trim row).length, rfl,
    fun rest => ?_⟩
  show draft.sections .prose (_ :: lineEndToken file number row :: rest) = _
  rw [sections_cons TokenKind.noConfusion rfl, sections_cons TokenKind.noConfusion rfl]

/-- The tokens of a row of text add the row. -/
theorem becomes_plain (draft : Draft) (file : String) (number : Nat) {row : List Char}
    (isRow : IsRow row) {first : Char} {others : List Char} (starts : row = first :: others)
    (plain : isBlank first = false) :
    ∃ line : Token, line.value = String.ofList row ∧
      draft.Becomes (shapeTokens file number row .plain) (draft.addLine line) := by
  obtain ⟨front, last, ends, stays⟩ := isRow.ends
  have line := draft.becomes_line file number row
  rw [trim_of_ends starts plain ends stays] at line
  exact line

/-- The tokens of a heading open a section. -/
theorem becomes_heading (draft : Draft) (file : String) (number : Nat) (level : Nat)
    (title : List Char) :
    ∃ heading : Heading, heading.level = level ∧ heading.title.value = String.ofList title ∧
      draft.Becomes (shapeTokens file number (headingRow level title) (.heading ⟨level, 1, title⟩))
        (draft.openSection heading) := by
  refine ⟨⟨tokenAt file number .headingMarker ((headingRow level title).take level) 0 level,
    tokenAt file number .text title (level + 1) title.length⟩, ?_, rfl, fun rest => ?_⟩
  · show (String.ofList ((headingRow level title).take level)).length = level
    rw [String.length_ofList, headingRow, List.take_left' List.length_replicate,
      List.length_replicate]
  · show draft.sections .prose (_ :: _ :: lineEndToken file number _ :: rest) = _
    rw [sections_cons TokenKind.noConfusion rfl, sections_cons TokenKind.noConfusion rfl,
      sections_cons TokenKind.noConfusion rfl]

end Draft

end DocGrammar
