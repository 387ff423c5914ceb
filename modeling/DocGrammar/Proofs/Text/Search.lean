import DocGrammar.Proofs.Documents.Shapes

/-! # Where a piece of a text is found

The search for a piece stops at its first occurrence. A character that the piece does not hold cuts
the search in two: the piece is found before the character, or else behind it.

* **`offsetOf?_eq_none_iff`** — a search fails exactly if the piece occurs nowhere.
* **`offsetOf?_append_cons`** — a search through two texts with a mark between them. -/

namespace DocGrammar

variable {piece text front rest : List Char} {mark : Char}

/-! ## Finding and missing -/

/-- A search fails if and only if the piece occurs nowhere. -/
theorem offsetOf?_eq_none_iff : offsetOf? piece text = none ↔ ¬piece <:+: text := by
  constructor
  · intro missed occurs
    obtain ⟨_, _, _, found⟩ := exists_offsetOf? occurs
    rw [missed] at found
    cases found
  · intro absent
    cases search : offsetOf? piece text with
    | none => rfl
    | some offset =>
      have here := List.isPrefixOf_iff_prefix.mp (isPrefixOf_drop_offsetOf? search)
      exact absurd (here.isInfix.trans (List.drop_suffix offset text).isInfix) absent

/-- A piece that a text starts with is found at once. -/
theorem offsetOf?_of_prefix (isPrefix : piece <+: text) : offsetOf? piece text = some 0 := by
  cases text with
  | nil =>
    rw [List.prefix_nil.mp isPrefix]
    rfl
  | cons char rest => rw [offsetOf?, if_pos (List.isPrefixOf_iff_prefix.mpr isPrefix)]

/-! ## Searching across a mark -/

/-- A piece without the mark that starts a text starts it before the mark. -/
theorem prefix_append_cons_iff (absent : mark ∉ piece) :
    piece <+: front ++ mark :: rest ↔ piece <+: front := by
  constructor
  · intro isPrefix
    rcases List.prefix_or_prefix_of_prefix isPrefix (List.prefix_append front (mark :: rest)) with
      inFront | ⟨tail, rfl⟩
    · exact inFront
    · -- the piece reaches beyond the front, so the mark would be its next character
      cases tail with
      | nil => simp
      | cons char tail =>
        rw [List.prefix_append_right_inj, List.cons_prefix_cons] at isPrefix
        rw [isPrefix.1] at absent
        exact absurd (List.mem_append_right front List.mem_cons_self) absent
  · intro isPrefix
    exact isPrefix.trans (List.prefix_append front (mark :: rest))

/-- The first occurrence of a piece that does not hold the mark: before the mark, or else behind
it. -/
theorem offsetOf?_append_cons (absent : mark ∉ piece) (nonempty : piece ≠ []) :
    offsetOf? piece (front ++ mark :: rest) =
      (offsetOf? piece front).or ((offsetOf? piece rest).map (· + (front.length + 1))) := by
  have misses : piece.isPrefixOf (mark :: rest) = false := by
    rw [← Bool.not_eq_true, List.isPrefixOf_iff_prefix]
    intro isPrefix
    exact nonempty (List.prefix_nil.mp ((prefix_append_cons_iff absent).mp isPrefix))
  induction front with
  | nil => simp [offsetOf?, misses, nonempty]
  | cons char front ih =>
    -- whether the piece starts here is decided in front of the mark
    have starts : piece.isPrefixOf (char :: (front ++ mark :: rest)) =
        piece.isPrefixOf (char :: front) := by
      rw [Bool.eq_iff_iff, List.isPrefixOf_iff_prefix, List.isPrefixOf_iff_prefix]
      rw [← List.cons_append]
      exact prefix_append_cons_iff absent
    rw [List.cons_append, offsetOf?, offsetOf?, starts, ih]
    by_cases here : piece.isPrefixOf (char :: front) = true
    · simp [here]
    · cases inFront : offsetOf? piece front with
      | none => simp [here, Option.map_map, Function.comp_def, Nat.add_assoc]
      | some offset => simp [here]

/-- A piece is not found where its first character does not stand. -/
theorem offsetOf?_skip {first : Char} {others gap : List Char} (starts : piece = first :: others)
    (absent : first ∉ gap) : offsetOf? piece (gap ++ text) =
      (offsetOf? piece text).map (· + gap.length) := by
  induction gap with
  | nil => simp
  | cons char gap ih =>
    have misses : piece.isPrefixOf (char :: (gap ++ text)) = false := by
      rw [← Bool.not_eq_true, List.isPrefixOf_iff_prefix, starts, List.cons_prefix_cons]
      rintro ⟨rfl, _⟩
      exact absent List.mem_cons_self
    have behind := ih fun member => absent (List.mem_cons_of_mem char member)
    rw [List.cons_append, offsetOf?, if_neg (by rw [misses]; exact Bool.false_ne_true), behind,
      Option.map_map]
    congr 1

end DocGrammar
