import DocGrammar.Specs.Document

/-! # Branches of the specs grammar

Below a heading the title and the level decide. A title with the mark of a feature stands at level
one and before every other section, the title of any other section stands at level two, and no other
title is known. Each branch is an equation.

* **`Specs.sectionNodes_headed`** — a section with a heading is read below its heading.
* **`Specs.headedSection_feature`**, **`Specs.headedSection_body`** — the branches that read.
* **`Specs.headedSection_cases`** — what is read below a heading is one of them. -/

namespace DocGrammar

namespace Specs

variable {part : Section} {heading : Heading} {items : List Item} {tail : List Char}
  {kind : SpecSection} {nodes : List Node} {final : WalkState Bool}

/-- A section with a heading that carries no failure is read below its heading. -/
theorem sectionNodes_headed (headed : part.heading = some heading) (sound : part.failure = none)
    (state : WalkState Bool) :
    sectionNodes sectionRule part state = headedSection heading part.items state := by
  unfold sectionNodes sectionRule
  rw [sound, headed]

/-- A preamble that is read has no nodes. -/
theorem nodes_of_preamble {state : WalkState Bool}
    (reads : preamble items state = .ok nodes final) : nodes = [] := by
  cases found : items.find? (!·.isFenced) with
  | some item =>
    simp only [preamble, found] at reads
    cases reads
  | none =>
    simp only [preamble, found] at reads
    cases reads
    rfl

/-! ## Features -/

/-- A feature at another level than one is refused. -/
theorem headedSection_featureLevel (titled : featureTail? heading.title.value = some tail)
    (level : heading.level ≠ 1) (items : List Item) (state : WalkState Bool) :
    headedSection heading items state = .error (.refused ⟨.featureLevel, heading.span⟩) state := by
  unfold headedSection
  simp only [titled, if_pos level]
  rfl

/-- A feature behind an opened section is refused. -/
theorem headedSection_featureNotFirst (titled : featureTail? heading.title.value = some tail)
    (level : heading.level = 1) (items : List Item) (session : Session) :
    headedSection heading items ⟨session, true⟩ =
      .error (.refused ⟨.featureNotFirst, heading.span⟩) ⟨session, true⟩ := by
  unfold headedSection
  simp only [titled, if_neg (not_not_intro level)]
  rfl

/-- Any other feature opens the document. -/
theorem headedSection_feature (titled : featureTail? heading.title.value = some tail)
    (level : heading.level = 1) (items : List Item) (session : Session) :
    headedSection heading items ⟨session, false⟩ =
      (do return [← feature heading items tail] : SpecsM (List Node)) ⟨session, true⟩ := by
  unfold headedSection
  simp only [titled, if_neg (not_not_intro level)]
  rfl

/-! ## Other sections -/

/-- A title that no section has is refused. -/
theorem headedSection_unknown (untitled : featureTail? heading.title.value = none)
    (unknown : sectionOf? heading.title.value = none) (items : List Item)
    (state : WalkState Bool) :
    headedSection heading items state =
      .error (.refused ⟨.unknownHeading heading.title.value knownTitles, heading.title.span⟩)
        state := by
  unfold headedSection
  simp only [untitled, unknown]
  rfl

/-- A known section at another level than two is refused. -/
theorem headedSection_sectionLevel (untitled : featureTail? heading.title.value = none)
    (known : sectionOf? heading.title.value = some kind) (level : heading.level ≠ 2)
    (items : List Item) (state : WalkState Bool) :
    headedSection heading items state =
      .error (.refused ⟨.sectionLevel kind.title, heading.span⟩) state := by
  unfold headedSection
  simp only [untitled, known, if_pos level]
  rfl

/-- Any other known section is opened, and its body is read. -/
theorem headedSection_body (untitled : featureTail? heading.title.value = none)
    (known : sectionOf? heading.title.value = some kind) (level : heading.level = 2)
    (items : List Item) (state : WalkState Bool) :
    headedSection heading items state =
      (do return [← bodySection kind heading items] : SpecsM (List Node))
        { state with memory := true } := by
  unfold headedSection
  simp only [untitled, known, if_neg (not_not_intro level)]
  rfl

/-- What is read below a heading is a feature before all sections or the body of a known section. -/
theorem headedSection_cases {state : WalkState Bool}
    (reads : headedSection heading items state = .ok nodes final) :
    (∃ tail, featureTail? heading.title.value = some tail ∧ heading.level = 1 ∧
        state.memory = false ∧
        (do return [← feature heading items tail] : SpecsM (List Node))
          { state with memory := true } = .ok nodes final) ∨
      ∃ kind, featureTail? heading.title.value = none ∧
        sectionOf? heading.title.value = some kind ∧ heading.level = 2 ∧
        (do return [← bodySection kind heading items] : SpecsM (List Node))
          { state with memory := true } = .ok nodes final := by
  obtain ⟨session, opened⟩ := state
  cases titled : featureTail? heading.title.value with
  | some tail =>
    by_cases level : heading.level = 1
    · cases opened with
      | true =>
        rw [headedSection_featureNotFirst titled level] at reads
        cases reads
      | false =>
        rw [headedSection_feature titled level] at reads
        exact .inl ⟨tail, rfl, level, rfl, reads⟩
    · rw [headedSection_featureLevel titled level] at reads
      cases reads
  | none =>
    cases known : sectionOf? heading.title.value with
    | none =>
      -- all that is not opened is refused
      rw [headedSection_unknown titled known] at reads
      cases reads
    | some kind =>
      by_cases level : heading.level = 2
      · rw [headedSection_body titled known level] at reads
        exact .inr ⟨kind, rfl, rfl, level, reads⟩
      · rw [headedSection_sectionLevel titled known level] at reads
        cases reads

end Specs

end DocGrammar
