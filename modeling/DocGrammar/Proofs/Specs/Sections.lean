import DocGrammar.Proofs.Documents.Run
import DocGrammar.Proofs.Documents.Sections
import DocGrammar.Proofs.Specs.Branches
import DocGrammar.Proofs.Specs.Contract
import DocGrammar.Proofs.Text.Readings
import DocGrammar.Specs.Document

/-! # Sections of specs documents stand alone

Reading a section leaves the parse as it was. All that a section remembers for those behind it is
that it was opened, and it is opened exactly if it is a known section at its own level.

* **`Specs.opens`** — whether a section counts as opened.
* **`Specs.isolated_sectionNodes`** — reading a section is isolated. -/

namespace DocGrammar

namespace Specs

/-! ## The tokens of a body -/

/-- Tokens none of which is the end of the input. -/
def Inner (tokens : List Token) : Prop := ∀ token ∈ tokens, token.kind ≠ .endOfInput

theorem inner_flatten {parts : List (List Token)} (inner : ∀ part ∈ parts, Inner part) :
    Inner parts.flatten := by
  intro token member
  obtain ⟨part, found, within⟩ := List.mem_flatten.mp member
  exact inner part found token within

theorem inner_lineCode {file : String} {line : Token} {code : List Token}
    (read : lineCode file line = .ok code) : Inner code := by
  obtain ⟨tokens, _, whole⟩ := exists_of_bind_ok read
  cases whole
  refine List.forall_mem_append.mpr ⟨fun token kept => ?_, ?_⟩
  · simpa using (List.mem_filter.mp kept).2
  · exact List.forall_mem_singleton.mpr TokenKind.noConfusion

theorem inner_itemCode {file : String} {item : Item} {code : List Token}
    (read : itemCode file item = .ok code) : Inner code := by
  cases item with
  | fenced block =>
    cases read
    exact List.forall_mem_nil _
  | link link => cases read
  | text block =>
    obtain ⟨parts, lines, whole⟩ := exists_of_bind_ok read
    cases whole
    refine inner_flatten fun part member => ?_
    obtain ⟨line, _, reads⟩ := exists_of_mem_forall₂ (forall₂_of_mapM_ok lines) member
    exact inner_lineCode reads

/-- The tokens of a body end with the input, comments left out or not. -/
theorem endsInput_bodyCode {file : String} {heading : Heading} {items : List Item}
    {code : List Token} (read : bodyCode file heading items = .ok code) :
    EndsInput (WalkM.seen code) := by
  obtain ⟨tokens, parts, whole⟩ := exists_of_bind_ok read
  cases whole
  have inner : Inner tokens.flatten := by
    refine inner_flatten fun part member => ?_
    obtain ⟨item, _, reads⟩ := exists_of_mem_forall₂ (forall₂_of_mapM_ok parts) member
    exact inner_itemCode reads
  unfold WalkM.seen
  rw [List.filter_append]
  refine EndsInput.append rfl fun token member => inner token ?_
  exact (List.mem_filter.mp member).1

/-! ## Reading a section -/

/-- The node of a feature section whose title goes on with `tail` behind the mark. -/
def featureNode (heading : Heading) (tail : List Char) : Node :=
  .spanning .featureSection [nameNode heading.title (String.ofList (trim tail))]
    (some heading.span)

/-- Whether a feature has a name and nothing but fenced blocks below its heading. -/
def ValidFeature (tail : List Char) (items : List Item) : Prop :=
  trim tail ≠ [] ∧ ∀ item ∈ items, item.isFenced = true

theorem feature_of_valid {heading : Heading} {items : List Item} {tail : List Char}
    (valid : ValidFeature tail items) (state : WalkState Bool) :
    feature heading items tail state = .ok (featureNode heading tail) state := by
  have fenced : items.find? (fun item => !item.isFenced) = none := by
    refine List.find?_eq_none.mpr fun item member => ?_
    simp [valid.2 item member]
  unfold feature
  simp [valid.1, fenced]
  rfl

theorem exists_feature_of_invalid (heading : Heading) {items : List Item} {tail : List Char}
    (invalid : ¬ValidFeature tail items) (state : WalkState Bool) :
    ∃ cause span, feature heading items tail state = .error (.refused ⟨cause, span⟩) state := by
  unfold feature
  by_cases named : trim tail = []
  · refine ⟨.missingFeatureName, heading.title.span, ?_⟩
    simp [named]
    rfl
  · cases found : items.find? (fun item => !item.isFenced) with
    | some item =>
      refine ⟨.contentAfterFeature, item.span, ?_⟩
      simp [named]
      rfl
    | none =>
      have fenced : ∀ item ∈ items, item.isFenced = true := by
        simpa using List.find?_eq_none.mp found
      exact absurd ⟨named, fenced⟩ invalid

theorem isolated_feature (heading : Heading) (items : List Item) (tail : List Char)
    (opened : Bool) : (feature heading items tail).Isolated opened opened := by
  unfold feature
  dsimp only
  refine WalkM.Isolated.ite (fun _ => WalkM.isolated_refuse_bind _ _ _) fun _ => ?_
  split
  · exact WalkM.isolated_refuse _ _
  · exact WalkM.isolated_pure _

theorem isolated_bodySection (part : SpecSection) (heading : Heading) (items : List Item)
    (opened : Bool) : (bodySection part heading items).Isolated opened opened := by
  refine WalkM.isolated_file_bind fun file => WalkM.isolated_ofExcept_bind fun code read => ?_
  have rule : (WalkM.runRule part.body code : SpecsM Node).Isolated opened opened :=
    WalkM.isolated_runRule part.takes_body (endsInput_bodyCode read)
  exact rule.bind fun body => WalkM.isolated_pure _

theorem isolated_preamble (items : List Item) (opened : Bool) :
    (preamble items).Isolated opened opened := by
  unfold preamble
  split
  · exact WalkM.isolated_refuse _ _
  · exact WalkM.isolated_pure _

/-- Whether a section is a known one at its own level: a feature at level one, or any other at
level two. -/
def opens (part : Section) : Bool :=
  match part.heading with
  | none => false
  | some heading =>
    match featureTail? heading.title.value with
    | some _ => heading.level = 1
    | none => (sectionOf? heading.title.value).isSome && heading.level = 2

/-- A section that counts as opened is one that the walk never skips. -/
theorem isHeading_of_opens {part : Section} (opened : opens part = true) :
    isHeading part = true := by
  unfold opens at opened
  unfold isHeading
  cases found : part.heading with
  | none => rw [found] at opened; cases opened
  | some heading =>
    rw [found] at opened
    cases feature : featureTail? heading.title.value with
    | some tail => simp [feature]
    | none =>
      simp only [feature, Bool.and_eq_true] at opened
      simp [opened.1]

/-- Remembering that a section was opened. -/
theorem isolated_markOpened (opened : Bool) : markOpened.Isolated opened true :=
  fun _ _ => ⟨.ok (), fun _ _ => rfl⟩

/-- What follows the question whether a section was opened is judged for the answer. -/
theorem isolated_wasOpened_bind {α : Type} {next : Bool → SpecsM α} {opened later : Bool}
    (walks : (next opened).Isolated opened later) :
    (wasOpened >>= next).Isolated opened later :=
  walks

theorem isolated_headedSection (heading : Heading) (items : List Item) (failure : Option Diagnostic)
    (opened : Bool) :
    (headedSection heading items).Isolated opened
      (opened || opens ⟨some heading, items, failure⟩) := by
  unfold headedSection opens
  dsimp only
  cases featureTail? heading.title.value with
  | some tail =>
    -- the level decides whether the section counts as opened
    by_cases level : heading.level = 1
    · simp only [level, ne_eq, not_true_eq_false, if_false, decide_true, Bool.or_true]
      refine isolated_wasOpened_bind ?_
      cases opened with
      | true => exact WalkM.isolated_refuse_bind _ _ _
      | false =>
        refine (isolated_markOpened false).bind fun _ => ?_
        exact (isolated_feature heading items tail true).bind fun _ => WalkM.isolated_pure _
    · simp only [level, ne_eq, not_false_eq_true, if_true, decide_false, Bool.or_false]
      exact WalkM.isolated_refuse_bind _ _ _
  | none =>
    cases sectionOf? heading.title.value with
    | none =>
      simp only [Option.isSome_none, Bool.false_and, Bool.or_false]
      exact WalkM.isolated_refuse _ _
    | some part =>
      by_cases level : heading.level = 2
      · simp only [level, ne_eq, not_true_eq_false, if_false, decide_true, Option.isSome_some,
          Bool.and_true, Bool.or_true]
        refine (isolated_markOpened opened).bind fun _ => ?_
        exact (isolated_bodySection part heading items true).bind fun _ => WalkM.isolated_pure _
      · simp only [level, ne_eq, not_false_eq_true, if_true, decide_false, Bool.and_false,
          Bool.or_false]
        exact WalkM.isolated_refuse_bind _ _ _

/-- Reading a section that is not at fault leaves the parse as it was, and opens the section if it
counts as opened. -/
theorem isolated_sectionNodes {part : Section} (sound : part.failure = none) (opened : Bool) :
    (sectionNodes sectionRule part).Isolated opened (opened || opens part) := by
  obtain ⟨heading, items, failure⟩ := part
  cases sound
  cases heading with
  | none =>
    show (preamble items).Isolated opened (opened || false)
    rw [Bool.or_false]
    exact isolated_preamble items opened
  | some heading => exact isolated_headedSection heading items none opened

end Specs

end DocGrammar
