import DocGrammar.Proofs.Documents.Listing

/-! # Lines that break inside

A text that is written as lines with line feeds between them is cut at its line feeds again, and at
every other line break inside a line. Which break stands there is lost: the lines are those of the
text with a line feed for every break.

* **`plainBreak`** — the line feed for every line break.
* **`IsClosed`** — lines that a line feed can stand behind.
* **`breakLines_intercalate`** — what closed lines are cut into.
* **`breakLines_feeds`** — what a text is cut into if no other line breaks stand in it. -/

namespace DocGrammar

variable {char : Char} {line rest : List Char} {lines : List (List Char)}

/-! ## Line breaks -/

/-- A line break is white space. -/
theorem isBlank_of_isLineBreak (breaks : isLineBreak char = true) : isBlank char = true := by
  rw [isBlank, CodeRange.covers_eq_true_iff]
  simp only [isLineBreak, Bool.or_eq_true, decide_eq_true_eq] at breaks
  rcases breaks with (((low | high) | rfl) | rfl) | rfl
  · have bounds := toNat_of_within low
    exact ⟨(0x9, 0xd), by decide, Nat.le_trans (by decide) bounds.1, bounds.2⟩
  · have bounds := toNat_of_within high
    exact ⟨(0x1c, 0x20), by decide, bounds.1, Nat.le_trans bounds.2 (by decide)⟩
  · exact ⟨(0x85, 0x85), by decide, by decide, by decide⟩
  · exact ⟨(0x2028, 0x2029), by decide, by decide, by decide⟩
  · exact ⟨(0x2028, 0x2029), by decide, by decide, by decide⟩

/-- A character of a word is no line break. -/
theorem isLineBreak_of_isWordChar (continues : isWordChar char = true) :
    isLineBreak char = false := by
  rw [Bool.eq_false_iff]
  intro breaks
  have blank := isBlank_of_isLineBreak breaks
  rw [isBlank_of_isWordChar continues] at blank
  exact Bool.false_ne_true blank

/-- The line feed for a line break, and any other character itself. -/
def plainBreak (char : Char) : Char := if isLineBreak char then '\n' else char

theorem plainBreak_of_break (breaks : isLineBreak char = true) : plainBreak char = '\n' :=
  if_pos breaks

theorem plainBreak_of_plain (plain : isLineBreak char = false) : plainBreak char = char :=
  if_neg (by rw [plain]; exact Bool.false_ne_true)

/-- Characters among which there is no line break stay as they are. -/
theorem map_plainBreak (plain : ∀ char ∈ line, isLineBreak char = false) :
    line.map plainBreak = line := by
  rw [List.map_congr_left fun char member => plainBreak_of_plain (plain char member), List.map_id']

/-! ## Cutting at line feeds -/

/-- The lines of a text in front of a line feed come before those behind it. -/
theorem feedLines_append_feed (line rest : List Char) :
    feedLines (line ++ '\n' :: rest) = feedLines line ++ feedLines rest := by
  induction line with
  | nil =>
    rw [List.nil_append, feedLines]
    exact if_pos rfl
  | cons char line ih =>
    rw [List.cons_append, feedLines, feedLines, ih]
    by_cases feed : char = '\n'
    · rw [if_pos feed, if_pos feed, List.cons_append]
    · rw [if_neg feed, if_neg feed]
      cases cut : feedLines line with
      | nil => exact absurd cut (feedLines_ne_nil line)
      | cons first others => rfl

/-- A text without its lines is determined by them. -/
theorem feedLines_inj {text other : List Char} :
    feedLines text = feedLines other ↔ text = other := by
  refine ⟨fun same => ?_, congrArg feedLines⟩
  rw [← intercalate_feedLines text, same, intercalate_feedLines]

/-! ## Cutting at line breaks -/

/-- Whether no line feed stands in a line and no line break ends it. -/
def IsClosed (line : List Char) : Prop :=
  '\n' ∉ line ∧ ∃ front last, line = front ++ [last] ∧ isLineBreak last = false

/-- A line break in front of something other than a line feed ends a line alone. -/
theorem breakLines_break_cons (breaks : isLineBreak char = true) (apart : rest.head? ≠ some '\n') :
    breakLines (char :: rest) = [] :: breakLines rest := by
  rw [breakLines, if_pos breaks]
  rintro more _ rfl
  exact apart rfl

theorem breakLines_feed (rest : List Char) : breakLines ('\n' :: rest) = [] :: breakLines rest := by
  rw [breakLines]
  · exact if_pos (by decide)
  · exact fun _ same => absurd same (by decide)

/-- A closed line is cut at its line breaks, whatever stands behind the line feed that ends it. -/
theorem breakLines_closed (closed : IsClosed line) (rest : List Char) :
    breakLines (line ++ '\n' :: rest) = feedLines (line.map plainBreak) ++ breakLines rest ∧
      breakLines line = feedLines (line.map plainBreak) := by
  obtain ⟨noFeed, front, last, rfl, plain⟩ := closed
  induction front with
  | nil =>
    have single : feedLines ([last].map plainBreak) = [[last]] := by
      rw [List.map_singleton, plainBreak_of_plain plain]
      exact feedLines_of_noFeed noFeed
    have alone : ∀ char ∈ [last], isLineBreak char = false := List.forall_mem_singleton.mpr plain
    rw [List.nil_append, single]
    exact ⟨breakLines_append alone (breakLines_feed rest),
      breakLines_plain alone (List.cons_ne_nil _ _)⟩
  | cons char front ih =>
    obtain ⟨behind, whole⟩ := ih (fun member => noFeed (List.mem_cons_of_mem _ member))
    rw [List.cons_append, List.cons_append, List.map_cons]
    cases breaks : isLineBreak char with
    | true =>
      -- the next character is no line feed, so it does not belong to this break
      have apart : ∀ more, (front ++ [last] ++ more).head? ≠ some '\n' := by
        intro more first
        have member : '\n' ∈ front ++ [last] := by
          cases front with
          | nil => exact List.mem_singleton.mpr (Option.some.inj first).symm
          | cons next front => exact List.mem_cons.mpr (.inl (Option.some.inj first).symm)
        exact noFeed (List.mem_cons_of_mem _ member)
      rw [breakLines_break_cons breaks (apart _), behind, breakLines_break_cons breaks
        (by simpa using apart []), whole, plainBreak_of_break breaks, feedLines, if_pos rfl]
      exact ⟨rfl, rfl⟩
    | false =>
      have feed : char ≠ '\n' := fun same => noFeed (same ▸ List.mem_cons_self)
      rw [breakLines_cons breaks, behind, breakLines_cons breaks, whole,
        plainBreak_of_plain breaks, feedLines, if_neg feed]
      cases cut : feedLines ((front ++ [last]).map plainBreak) with
      | nil => exact absurd cut (feedLines_ne_nil _)
      | cons first others => exact ⟨rfl, rfl⟩

/-- Closed lines with line feeds between them are cut at all their line breaks. -/
theorem breakLines_intercalate (nonempty : lines ≠ []) (closed : ∀ line ∈ lines, IsClosed line) :
    breakLines (['\n'].intercalate lines) =
      feedLines ((['\n'].intercalate lines).map plainBreak) := by
  induction lines with
  | nil => exact absurd rfl nonempty
  | cons line others ih =>
    obtain ⟨here, below⟩ := List.forall_mem_cons.mp closed
    cases others with
    | nil =>
      rw [List.intercalate_singleton]
      exact (breakLines_closed here []).2
    | cons next more =>
      rw [List.intercalate_cons_cons, List.append_assoc, List.singleton_append,
        (breakLines_closed here _).1, ih (List.cons_ne_nil _ _) below, List.map_append,
        List.map_cons,
        plainBreak_of_break (by decide), feedLines_append_feed]

/-- A text without other line breaks than line feeds is cut at these, whatever stands behind the
line feed that ends it. -/
theorem breakLines_feeds {text : List Char}
    (feeds : ∀ char ∈ text, isLineBreak char = true → char = '\n') (rest : List Char) :
    breakLines (text ++ '\n' :: rest) = feedLines text ++ breakLines rest := by
  induction text with
  | nil => exact breakLines_feed rest
  | cons char text ih =>
    obtain ⟨here, below⟩ := List.forall_mem_cons.mp feeds
    rw [List.cons_append, feedLines]
    by_cases feed : char = '\n'
    · rw [if_pos feed, feed, breakLines_feed, ih below, List.cons_append]
    · have plain : isLineBreak char = false := Bool.eq_false_iff.mpr fun breaks =>
        feed (here breaks)
      rw [if_neg feed, breakLines_cons plain, ih below]
      cases cut : feedLines text with
      | nil => exact absurd cut (feedLines_ne_nil text)
      | cons first others => rfl

end DocGrammar
