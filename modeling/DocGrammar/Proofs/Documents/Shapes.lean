import DocGrammar.Proofs.Documents.Rows
import Mathlib.Data.List.TakeWhile

/-! # The pieces of a line

The shape of a line keeps the pieces that its tokens are made of. The pieces stand one behind the
other on the line, and none that becomes a token is empty.

* **`exists_of_headingPieces?`**, **`exists_of_fencePieces?`**, **`exists_of_linkPieces?`** — the
  line as its pieces.
* **`exists_offsetOf?`** — a piece of a text is found in it. -/

namespace DocGrammar

variable {line text piece chars : List Char} {char : Char}

/-! ## Cutting texts -/

/-- A run at the start of a text and what stands behind it. -/
theorem takeWhile_append_drop (holds : Char → Bool) (chars : List Char) :
    chars.takeWhile holds ++ chars.drop (chars.takeWhile holds).length = chars :=
  List.prefix_iff_eq_append.mp <| List.takeWhile_prefix holds

/-- A piece of a text is found in it, where it stands first. -/
theorem exists_offsetOf? (isInfix : piece <:+: text) :
    ∃ before behind, text = before ++ (piece ++ behind) ∧
      offsetOf? piece text = some before.length := by
  induction text with
  | nil =>
    rw [List.infix_nil] at isInfix
    exact ⟨[], [], by rw [isInfix]; rfl, by rw [isInfix]; rfl⟩
  | cons char rest ih =>
    rw [offsetOf?]
    by_cases here : piece.isPrefixOf (char :: rest) = true
    · obtain ⟨behind, split⟩ := List.isPrefixOf_iff_prefix.mp here
      exact ⟨[], behind, split.symm, if_pos here⟩
    · rcases List.infix_cons_iff.mp isInfix with isPrefix | later
      · exact absurd (List.isPrefixOf_iff_prefix.mpr isPrefix) here
      · obtain ⟨before, behind, split, found⟩ := ih later
        refine ⟨char :: before, behind, by rw [split]; rfl, ?_⟩
        rw [if_neg here, found]
        rfl

/-! ## Pieces -/

/-- Spaces and tabs are white space. -/
theorem isBlank_of_isGap (gap : isGap char = true) : isBlank char = true := by
  by_contra visible
  rw [isGap_of_isBlank (Bool.eq_false_iff.mpr visible)] at gap
  cases gap

/-- A gap at the start of a text is white space. -/
theorem isBlank_of_mem_gap {chars : List Char} (member : char ∈ chars.takeWhile isGap) :
    isBlank char = true := isBlank_of_isGap (List.mem_takeWhile_imp member)

/-- The pieces of a heading: hash signs, a gap and a title, with white space behind it. -/
theorem exists_of_headingPieces? {pieces : HeadingPieces}
    (shaped : headingPieces? line = some pieces) :
    ∃ marker gap tail, line = marker ++ (gap ++ (pieces.title ++ tail)) ∧
      marker.length = pieces.level ∧ gap.length = pieces.gap ∧ 1 ≤ pieces.level ∧
      pieces.title ≠ [] ∧ (∀ char ∈ gap, isBlank char = true) ∧
      ∀ char ∈ tail, isBlank char = true := by
  unfold headingPieces? at shaped
  dsimp only at shaped
  split at shaped
  · cases shaped
  · next first others title =>
    split at shaped
    · next fits =>
      cases shaped
      simp only [Bool.and_eq_true, decide_eq_true_eq, Bool.not_eq_true'] at fits
      obtain ⟨⟨⟨positive, _⟩, _⟩, visible⟩ := fits
      obtain ⟨tail, split, white⟩ := dropTailWhile_append isBlank (first :: others)
      refine ⟨_, _, tail, ?_, rfl, rfl, positive, ?_, fun char => isBlank_of_mem_gap, white⟩
      · rw [title, trimEnd, ← split, ← title, takeWhile_append_drop, takeWhile_append_drop]
      · -- the first character is visible, so trimming the end leaves a title
        have kept : trimEnd (first :: others) = first :: trimEnd others :=
          dropTailWhile_append_cons [] visible
        rw [title, kept]
        exact List.cons_ne_nil _ _
    · cases shaped

/-- The pieces of an opening fence: white space and backticks, which the line keeps when its end
is trimmed. -/
theorem exists_of_fencePieces? {pieces : FencePieces} (shaped : fencePieces? line = some pieces) :
    ∃ indent own tail, line = indent ++ (own ++ tail) ∧ indent.length = pieces.indent ∧
      own ≠ [] ∧ own.length = (trimEnd line).length - pieces.indent ∧
      (∀ char ∈ indent, isBlank char = true) ∧ ∀ char ∈ tail, isBlank char = true := by
  unfold fencePieces? at shaped
  dsimp only at shaped
  split at shaped
  · next fits =>
    cases shaped
    simp only [Bool.and_eq_true, decide_eq_true_eq] at fits
    have cut := takeWhile_append_drop isGap line
    cases behind : line.drop (line.takeWhile isGap).length with
    | nil =>
      rw [behind] at fits
      simp at fits
    | cons first others =>
      -- there are three backticks at least, so the first character behind the gap is one
      have tick : isBacktick first = true := by
        rw [behind] at fits
        by_contra other
        rw [List.takeWhile_cons_of_neg other] at fits
        exact absurd fits.2 (by decide)
      have visible : isBlank first = false := by
        rw [of_decide_eq_true tick]
        decide
      rw [behind] at cut
      obtain ⟨tail, split, white⟩ := dropTailWhile_append isBlank others
      refine ⟨_, first :: trimEnd others, tail, ?_, rfl, List.cons_ne_nil _ _, ?_,
        fun char => isBlank_of_mem_gap, white⟩
      · rw [List.cons_append, trimEnd, ← split, cut]
      · have inner : trimEnd (line.takeWhile isGap ++ first :: others) =
            line.takeWhile isGap ++ first :: trimEnd others :=
          dropTailWhile_append_cons _ visible
        rw [cut] at inner
        rw [inner]
        simp
  · cases shaped

/-- The pieces of a link: white space, a hyphen, a gap, a target between brackets, and a tail. -/
theorem exists_of_linkPieces? {pieces : LinkPieces} (shaped : linkPieces? line = some pieces) :
    ∃ indent gap,
      line = indent ++ ('-' :: (gap ++ ('[' :: (pieces.target ++ (']' :: pieces.tail))))) ∧
      indent.length = pieces.indent ∧ gap.length = pieces.gap ∧ pieces.target ≠ [] ∧
      (∀ char ∈ indent, isBlank char = true) ∧ ∀ char ∈ gap, isBlank char = true := by
  unfold linkPieces? at shaped
  dsimp only at shaped
  split at shaped
  · next behindHyphen hyphen =>
    split at shaped
    · next behindBracket bracket =>
      split at shaped
      · next tail closing =>
        split at shaped
        · cases shaped
        · next fits =>
          cases shaped
          simp only [Bool.or_eq_true, decide_eq_true_eq, List.isEmpty_iff, not_or] at fits
          refine ⟨_, _, ?_, rfl, rfl, fits.2, fun char => isBlank_of_mem_gap,
            fun char => isBlank_of_mem_gap⟩
          -- each piece is what a run of characters takes from what the one before it leaves
          rw [← closing, takeWhile_append_drop, ← bracket, takeWhile_append_drop, ← hyphen,
            takeWhile_append_drop]
      · cases shaped
    · cases shaped
  · cases shaped

/-- The description of a link is a piece of its tail. -/
theorem LinkPieces.description_isInfix (pieces : LinkPieces) :
    pieces.description <:+: pieces.tail := by
  have whole := trim_isInfix pieces.tail
  unfold description
  split
  · next rest shape =>
    rw [shape] at whole
    exact (trim_isInfix rest).trans ((List.suffix_cons _ _).isInfix.trans whole)
  · exact whole

/-- What the shape of a row says of the row. -/
def LineShape.Fits (row : List Char) : LineShape → Prop
  | .heading pieces => headingPieces? row = some pieces
  | .fence pieces => fencePieces? row = some pieces
  | .link pieces => linkPieces? row = some pieces
  | .plain => row.all isBlank = false
  | _ => True

/-- The pieces of a shape are those of the row, and a row of text is not blank. -/
theorem LineShape.fits_ofLine (isFirst : Bool) (row : List Char) :
    (LineShape.ofLine isFirst row).Fits row := by
  unfold LineShape.ofLine
  split
  · exact trivial
  · next visible =>
    split
    · exact trivial
    split
    · split
      · next pieces shaped => exact shaped
      · exact trivial
    · split
      · next pieces _ shaped => exact shaped
      · next pieces _ shaped => exact shaped
      · exact Bool.eq_false_iff.mpr visible

/-- Only the first row can be a directive. -/
theorem LineShape.ofLine_ne_shebang (row : List Char) : LineShape.ofLine false row ≠ .shebang := by
  intro shape
  unfold LineShape.ofLine at shape
  rw [Bool.false_and, if_neg Bool.false_ne_true] at shape
  split at shape
  · cases shape
  split at shape
  · split at shape <;> cases shape
  · split at shape <;> cases shape

/-- The first row is a directive if and only if it opens like one. -/
theorem LineShape.ofLine_eq_shebang_iff (row : List Char) :
    LineShape.ofLine true row = .shebang ↔ ['#', '!'] <+: row := by
  unfold LineShape.ofLine
  constructor
  · intro shape
    split at shape
    · cases shape
    split at shape
    · next opens => exact List.isPrefixOf_iff_prefix.mp (by simpa using opens)
    split at shape
    · split at shape <;> cases shape
    · split at shape <;> cases shape
  · rintro ⟨rest, rfl⟩
    have visible : ¬(['#', '!'] ++ rest).all isBlank = true := by
      rw [List.cons_append, List.all_cons, show isBlank '#' = false by decide, Bool.false_and]
      exact Bool.false_ne_true
    have opens : ['#', '!'].isPrefixOf (['#', '!'] ++ rest) = true :=
      List.isPrefixOf_iff_prefix.mpr (List.prefix_append _ rest)
    rw [if_neg visible, if_pos (by rw [opens]; rfl)]

/-- Dropping the carriage return of a line leaves the start of the line. -/
theorem dropReturn_isPrefix (line : List Char) : dropReturn line <+: line := by
  unfold dropReturn
  split
  · exact List.dropLast_prefix line
  · exact List.prefix_rfl

/-- A row is cut at its carriage return, if one ends it. -/
theorem dropReturn_cases (row : List Char) :
    row = dropReturn row ∨ row = dropReturn row ++ ['\r'] := by
  unfold dropReturn
  split
  · next ends =>
    obtain ⟨front, rfl⟩ := List.getLast?_eq_some_iff.mp ends
    exact Or.inr (by rw [List.dropLast_concat])
  · exact Or.inl rfl

/-- Only white space is dropped with the carriage return of a row. -/
theorem exists_dropReturn (row : List Char) :
    ∃ blanks, row = dropReturn row ++ blanks ∧ ∀ char ∈ blanks, isBlank char = true := by
  rcases dropReturn_cases row with kept | returned
  · exact ⟨[], by rw [List.append_nil]; exact kept, List.forall_mem_nil _⟩
  · exact ⟨['\r'], returned, List.forall_mem_singleton.mpr (by decide)⟩

end DocGrammar
