import DocGrammar.Proofs.Documents.Single
import DocGrammar.Proofs.Specs.Bodies

/-! # Specs documents as trees

A specs document names at most one feature and describes it in sections. It is written as rows: the
directive, the headings and the lines of the sections. Cutting the text into sections gives these
back.

* **`SpecsTree`** — the documents.
* **`SpecsTree.text`**, **`SpecsTree.node`** — how a document is written and what it becomes.
* **`SpecsTree.exists_document`** — the sections of the text are those of the document. -/

namespace DocGrammar

/-! ## Features and documents -/

/-- The name of a feature. -/
structure FeatureName where
  /-- The name. -/
  text : String
  /-- It is not empty. -/
  nonempty : text.toList ≠ []
  /-- No white space stands around it. -/
  isTrimmed : trim text.toList = text.toList
  /-- It holds no control characters. -/
  isClean : isCleanText text.toList = true

/-- A specs document. -/
structure SpecsTree where
  /-- Whether it names the grammar of specs documents. -/
  isNamed : Bool
  /-- The feature that it describes. -/
  feature : Option FeatureName
  /-- The sections that describe it. -/
  sections : List SectionTree

/-! ## Nodes -/

/-- The node of a feature. -/
def FeatureName.node (name : FeatureName) : Node :=
  .plain .featureSection [.plainLeaf .featureName name.text]

/-- The node of the directive. -/
def directiveNode : Node := .plain .shebang [.plainLeaf .grammarName Grammar.specs.name]

namespace SpecsTree

/-- The node of a document. -/
def node (tree : SpecsTree) : Node :=
  .plain .sourceFile ((if tree.isNamed then [directiveNode] else []) ++
    (tree.feature.toList.map FeatureName.node ++ tree.sections.map SectionTree.node))

/-- The nesting of the deepest section of a document. -/
def nest (tree : SpecsTree) : Nat := (tree.sections.map SectionTree.nest).foldr max 0

/-- The symbols of all lines of a document. -/
def symbols (tree : SpecsTree) : List (Symbol .specs) :=
  tree.sections.flatMap fun part => part.specs.flatMap SpecTree.symbols

end SpecsTree

/-! ## Writing -/

/-- The row that names the grammar of specs documents. -/
def directiveRow : List Char := "#!/grammars/specs parse".toList

/-- The title of a feature. -/
def FeatureName.title (name : FeatureName) : List Char :=
  Specs.featureMark.toList ++ ' ' :: name.text.toList

/-- The row of a feature. -/
def FeatureName.row (name : FeatureName) : List Char := headingRow 1 name.title

/-- The rows of a section: its heading and its lines. -/
def SectionTree.rows (tree : SectionTree) (spacing : List (Symbol .specs) → Nat → Gap) :
    List (List Char) :=
  headingRow 2 tree.part.title.toList :: tree.specs.map fun spec => spec.text spacing

namespace SpecsTree

/-- The rows of a document. -/
def rows (tree : SpecsTree) (spacing : List (Symbol .specs) → Nat → Gap) : List (List Char) :=
  (if tree.isNamed then [directiveRow] else []) ++
    (tree.feature.toList.map FeatureName.row ++
      tree.sections.flatMap fun part => part.rows spacing)

/-- The text of a document: its rows with line feeds between them, and one at the end if wanted. -/
def text (tree : SpecsTree) (spacing : List (Symbol .specs) → Nat → Gap) (isEnded : Bool) :
    String :=
  String.ofList (['\n'].intercalate (tree.rows spacing ++ if isEnded then [[]] else []))

end SpecsTree

/-! ## Rows of lines -/

variable {part : SpecSection} {spacing : List (Symbol .specs) → Nat → Gap} {file : String}
  {number : Nat}

namespace SpecTree

/-- A line starts with a character of a word. -/
theorem exists_first (spec : SpecTree part) (spacing : List (Symbol .specs) → Nat → Gap) :
    ∃ first others, spec.text spacing = first :: others ∧ isWordChar first = true := by
  obtain ⟨kind, word, isWord, assigned, others, same, _⟩ := spec.exists_word
  obtain ⟨first, more, chars⟩ : ∃ first more, word.toList = first :: more := by
    cases chars : word.toList with
    | nil =>
      rw [chars] at isWord
      exact absurd isWord Bool.false_ne_true
    | cons first more => exact ⟨first, more, rfl⟩
  have starts : isWordChar first = true :=
    isWordChar_of_isWord isWord first (by rw [chars]; exact List.mem_cons_self)
  have spelled : (Symbol.word kind word isWord assigned).chars = first :: more := chars
  rw [text, same, layout]
  obtain ⟨spaces, whole, _⟩ := (Symbol.word kind word isWord assigned).exists_before
    (layout (fun place => innerGaps (Symbol.word kind word isWord assigned :: others).length
      (spacing (.word kind word isWord assigned :: others)) (place + 1)) others)
  rw [whole, spelled]
  exact ⟨first, _, rfl, starts⟩

/-- Every line can stand on a row of its own. -/
theorem isRow (spec : SpecTree part) (spacing : List (Symbol .specs) → Nat → Gap) :
    IsRow (spec.text spacing) := by
  have nonempty : spec.symbols ≠ [] := by
    obtain ⟨_, _, _, _, _, same, _⟩ := spec.exists_word
    rw [same]
    exact List.cons_ne_nil _ _
  have tight : (innerGaps spec.symbols.length (spacing spec.symbols) spec.symbols.length).val =
      [] := by
    rw [innerGaps, if_pos (by simp)]
  exact ⟨isCleanText_layout _ spec.isWritable.clean,
    exists_last_layout _ nonempty spec.isWritable.noFeed tight⟩

end SpecTree

/-! ## Reading rows -/

namespace Draft

/-- A draft with other items. -/
def withItems (draft : Draft) (items : List Item) : Draft := { draft with items := items }

/-- A line joins the text that was read before. -/
theorem exists_addLine (draft : Draft) (texts : ∀ item ∈ draft.items, item.isText = true)
    (line : Token) :
    ∃ items, draft.addLine line = draft.withItems items ∧ (∀ item ∈ items, item.isText = true) ∧
      items.flatMap Item.lines = draft.items.flatMap Item.lines ++ [line] := by
  have added : ∃ items, draft.addItem (.text ⟨line, []⟩) = draft.withItems items ∧
      (∀ item ∈ items, item.isText = true) ∧
      items.flatMap Item.lines = draft.items.flatMap Item.lines ++ [line] := by
    refine ⟨draft.items ++ [.text ⟨line, []⟩], rfl, ?_, ?_⟩
    · exact List.forall_mem_append.mpr ⟨texts, List.forall_mem_singleton.mpr rfl⟩
    · rw [List.flatMap_append]
      rfl
  unfold addLine
  split
  · next block found =>
    split
    · refine ⟨_, rfl, ?_, ?_⟩
      · exact List.forall_mem_append.mpr ⟨fun item before =>
          texts item (List.dropLast_subset _ before), List.forall_mem_singleton.mpr rfl⟩
      · -- the last item is a block, which takes the line up; else a new block holds it alone
        obtain ⟨before, same⟩ := List.getLast?_eq_some_iff.mp found
        rw [same, List.dropLast_concat, List.flatMap_append, List.flatMap_append, List.append_assoc]
        congr 1
        simp [Item.lines]
    · exact added
  · exact added

end Draft

/-- The rows of some lines become tokens that add the lines to a draft. -/
theorem exists_specRows (spacing : List (Symbol .specs) → Nat → Gap) (file : String)
    (specs : List (SpecTree part)) (number : Nat) :
    ∃ tokens, RowTokens file number (specs.map fun spec => spec.text spacing) tokens ∧
      (∀ token ∈ tokens, token.kind ≠ .shebang) ∧
      ∀ draft : Draft, (∀ item ∈ draft.items, item.isText = true) →
        ∃ items, draft.Becomes tokens (draft.withItems items) ∧
          (∀ item ∈ items, item.isText = true) ∧
          (items.flatMap Item.lines).map Token.value =
            (draft.items.flatMap Item.lines).map Token.value ++
              specs.map fun spec => String.ofList (spec.text spacing) := by
  induction specs generalizing number with
  | nil =>
    refine ⟨[], rowTokens_nil, fun _ member => absurd member List.not_mem_nil,
      fun draft texts => ?_⟩
    exact ⟨draft.items, draft.becomes_nil, texts, (List.append_nil _).symm⟩
  | cons spec specs ih =>
    obtain ⟨more, readMore, noDirective, goesOn⟩ := ih (number + 1)
    obtain ⟨first, others, starts, word⟩ := spec.exists_first spacing
    have isRow := spec.isRow spacing
    have shaped : LineShape.ofLine (number = 1) (spec.text spacing) = .plain :=
      ofLine_plain starts word _
    have here : RowTokens file number [spec.text spacing] _ :=
      rowTokens_singleton isRow shaped fun _ => LineShape.noConfusion
    refine ⟨_, here.append readMore, ?_, fun draft texts => ?_⟩
    · exact List.forall_mem_append.mpr
        ⟨kind_ne_shebang_of_shapeTokens _ _ _ LineShape.noConfusion, noDirective⟩
    · -- a line joins the text above it or starts one; its value is the text of the row either way
      obtain ⟨line, value, becomes⟩ := draft.becomes_plain file number isRow starts
        (isBlank_of_isWordChar word)
      obtain ⟨items, added, itemTexts, lines⟩ := draft.exists_addLine texts line
      rw [added] at becomes
      obtain ⟨final, becomesFinal, finalTexts, values⟩ := goesOn (draft.withItems items) itemTexts
      refine ⟨final, becomes.append becomesFinal, finalTexts, ?_⟩
      have behind : ((draft.withItems items).items.flatMap Item.lines).map Token.value =
          (draft.items.flatMap Item.lines).map Token.value ++ [line.value] := by
        show (items.flatMap Item.lines).map Token.value = _
        rw [lines, List.map_append, List.map_singleton]
      rw [values, behind, value, List.append_assoc]
      rfl

/-! ## Reading sections -/

/-- Whether a section of a text is one that was written. -/
structure Section.IsWritten (part : Section) (tree : SectionTree)
    (spacing : List (Symbol .specs) → Nat → Gap) : Prop where
  /-- It has a heading of level two with the title of the section. -/
  heading : ∃ heading, part.heading = some heading ∧ heading.level = 2 ∧
    heading.title.value = tree.part.title
  /-- It is not at fault. -/
  failure : part.failure = none
  /-- It holds nothing but text. -/
  texts : ∀ item ∈ part.items, item.isText = true
  /-- The lines are those that were written. -/
  values : (part.items.flatMap Item.lines).map Token.value =
    tree.specs.map fun spec => String.ofList (spec.text spacing)

/-- Whether the sections of a text are those that were written. -/
inductive AreWritten (spacing : List (Symbol .specs) → Nat → Gap) :
    List Section → List SectionTree → Prop where
  /-- No sections were written. -/
  | nil : AreWritten spacing [] []
  /-- A section was written before others. -/
  | cons {part : Section} {tree : SectionTree} {parts : List Section} {trees : List SectionTree}
      (first : part.IsWritten tree spacing) (others : AreWritten spacing parts trees) :
      AreWritten spacing (part :: parts) (tree :: trees)

/-- The titles of sections are titles. -/
theorem isTitle_title (part : SpecSection) : IsTitle part.title.toList := by
  have clean : isCleanText part.title.toList = true := by
    cases part <;> decide
  have first : ∃ first others, part.title.toList = first :: others ∧ isBlank first = false := by
    cases part <;> exact ⟨_, _, rfl, by decide⟩
  have last : ∃ front last, part.title.toList = front ++ [last] ∧ isBlank last = false := by
    refine exists_last_of_plain ?_ ?_
    · cases part <;> exact List.cons_ne_nil _ _
    · have plain : (part.title.toList.all (!isBlank ·)) = true := by
        cases part <;> decide
      intro char member
      have other := List.all_eq_true.mp plain char member
      rwa [Bool.not_eq_true'] at other
  exact ⟨⟨clean, last⟩, first⟩

/-- The rows of a section become tokens that open the section and fill it with its lines. -/
theorem exists_sectionRows (spacing : List (Symbol .specs) → Nat → Gap) (file : String)
    (tree : SectionTree) (number : Nat) :
    ∃ tokens, RowTokens file number (tree.rows spacing) tokens ∧
      (∀ token ∈ tokens, token.kind ≠ .shebang) ∧
      ∀ draft : Draft, ∃ heading items,
        draft.Becomes tokens ((draft.openSection heading).withItems items) ∧
          Section.IsWritten ⟨some heading, items, none⟩ tree spacing := by
  have isTitle := isTitle_title tree.part
  have shaped : LineShape.ofLine (number = 1) (headingRow 2 tree.part.title.toList) =
      .heading ⟨2, 1, tree.part.title.toList⟩ := ofLine_heading isTitle (by decide) (by decide) _
  have here : RowTokens file number [headingRow 2 tree.part.title.toList] _ :=
    rowTokens_singleton (isRow_headingRow isTitle 2) shaped fun _ => LineShape.noConfusion
  obtain ⟨more, readMore, noDirective, goesOn⟩ :=
    exists_specRows spacing file tree.specs (number + 1)
  refine ⟨_, here.append readMore, ?_, fun draft => ?_⟩
  · exact List.forall_mem_append.mpr
      ⟨kind_ne_shebang_of_shapeTokens _ _ _ LineShape.noConfusion, noDirective⟩
  · -- the heading opens the section, and the rows behind it fill it
    obtain ⟨heading, level, title, becomes⟩ := draft.becomes_heading file number 2
      tree.part.title.toList
    obtain ⟨items, becomesItems, texts, values⟩ := goesOn (draft.openSection heading)
      fun _ member => absurd member List.not_mem_nil
    refine ⟨heading, items, becomes.append becomesItems, ⟨heading, rfl, level, ?_⟩, rfl, texts, ?_⟩
    · rw [title, String.ofList_toList]
    · exact values

/-- The rows of some sections become tokens that open the sections one after the other. -/
theorem exists_sectionsRows (spacing : List (Symbol .specs) → Nat → Gap) (file : String)
    (trees : List SectionTree) (number : Nat) :
    ∃ tokens, RowTokens file number (trees.flatMap fun tree => tree.rows spacing) tokens ∧
      (∀ token ∈ tokens, token.kind ≠ .shebang) ∧
      ∀ (draft : Draft) (last : Token), last.kind = .endOfInput →
        ∃ parts, draft.sections .prose (tokens ++ [last]) =
            .ok (draft.complete ++ ⟨draft.heading, draft.items, none⟩ :: parts) ∧
          AreWritten spacing parts trees := by
  induction trees generalizing number with
  | nil =>
    refine ⟨[], rowTokens_nil, fun _ member => absurd member List.not_mem_nil, ?_⟩
    intro draft last ends
    exact ⟨[], Draft.sections_last ends, .nil⟩
  | cons tree trees ih =>
    obtain ⟨tokens, read, noDirective, opens⟩ := exists_sectionRows spacing file tree number
    obtain ⟨more, readMore, noDirectiveMore, goesOn⟩ := ih (number + (tree.rows spacing).length)
    rw [List.flatMap_cons]
    refine ⟨tokens ++ more, read.append readMore, ?_, ?_⟩
    · exact List.forall_mem_append.mpr ⟨noDirective, noDirectiveMore⟩
    · intro draft last ends
      -- the next heading, or the end, completes the section that the rows have filled
      obtain ⟨heading, items, becomes, written⟩ := opens draft
      obtain ⟨parts, outcome, others⟩ := goesOn _ last ends
      refine ⟨⟨some heading, items, none⟩ :: parts, ?_, .cons written others⟩
      rw [List.append_assoc, becomes, outcome]
      show Except.ok ((draft.complete ++ [_]) ++ _ :: parts) = _
      rw [List.append_assoc, List.singleton_append]
      rfl

/-! ## Reading features -/

/-- Whether a section of a text is the feature that was written. -/
structure Section.IsFeature (part : Section) (name : FeatureName) : Prop where
  /-- It has a heading of level one with the title of the feature. -/
  heading : ∃ heading, part.heading = some heading ∧ heading.level = 1 ∧
    heading.title.value = String.ofList name.title
  /-- It is not at fault. -/
  failure : part.failure = none
  /-- It holds nothing. -/
  items : part.items = []

/-- Whether the first sections of a text are the feature that was written, if there is one. -/
def AreOpening (parts : List Section) (feature : Option FeatureName) : Prop :=
  match feature with
  | none => parts = []
  | some name => ∃ part, parts = [part] ∧ part.IsFeature name

theorem FeatureName.isTitle (name : FeatureName) : IsTitle name.title := by
  obtain ⟨_, front, last, whole, plain⟩ := ends_of_trim name.nonempty name.isTrimmed
  refine ⟨⟨?_, Specs.featureMark.toList ++ ' ' :: front, last, ?_, plain⟩, _, _, rfl, by decide⟩
  · rw [title, isCleanText_append, isCleanText_cons, name.isClean]
    decide
  · rw [title, whole, List.append_assoc, List.cons_append]

/-- The row of a feature becomes tokens that open its section. -/
theorem exists_featureRow (file : String) (name : FeatureName) (number : Nat) :
    ∃ tokens, RowTokens file number [name.row] tokens ∧
      (∀ token ∈ tokens, token.kind ≠ .shebang) ∧
      ∀ draft : Draft, ∃ heading, draft.Becomes tokens (draft.openSection heading) ∧
        Section.IsFeature ⟨some heading, [], none⟩ name := by
  have isTitle := name.isTitle
  have shaped : LineShape.ofLine (number = 1) name.row = .heading ⟨1, 1, name.title⟩ :=
    ofLine_heading isTitle (by decide) (by decide) _
  refine ⟨_, rowTokens_singleton (isRow_headingRow isTitle 1) shaped fun _ => LineShape.noConfusion,
    kind_ne_shebang_of_shapeTokens _ _ _ LineShape.noConfusion, fun draft => ?_⟩
  obtain ⟨heading, level, title, becomes⟩ := draft.becomes_heading file number 1 name.title
  exact ⟨heading, becomes, ⟨heading, rfl, level, title⟩, rfl, rfl⟩

/-! ## Reading documents -/

namespace SpecsTree

/-- The rows of a document without the directive. -/
def bodyRows (tree : SpecsTree) (spacing : List (Symbol .specs) → Nat → Gap) : List (List Char) :=
  tree.feature.toList.map FeatureName.row ++ tree.sections.flatMap fun part => part.rows spacing

/-- Whether some sections are the one of the feature, if there is one, and those that are
written. -/
def IsCut (tree : SpecsTree) (spacing : List (Symbol .specs) → Nat → Gap)
    (sections : List Section) : Prop :=
  ∃ opening parts, sections = opening ++ parts ∧ AreOpening opening tree.feature ∧
    AreWritten spacing parts tree.sections

/-- The rows below the directive become tokens that open the feature and the sections. -/
theorem exists_bodyRows (tree : SpecsTree) (spacing : List (Symbol .specs) → Nat → Gap)
    (file : String) (number : Nat) :
    ∃ tokens, RowTokens file number (tree.bodyRows spacing) tokens ∧
      (∀ token ∈ tokens, token.kind ≠ .shebang) ∧
      ∀ last : Token, last.kind = .endOfInput → ∃ sections,
        Draft.empty.sections .prose (tokens ++ [last]) = .ok (⟨none, [], none⟩ :: sections) ∧
          tree.IsCut spacing sections := by
  unfold bodyRows IsCut
  cases named : tree.feature with
  | none =>
    obtain ⟨tokens, read, noDirective, goesOn⟩ :=
      exists_sectionsRows spacing file tree.sections number
    refine ⟨tokens, read, noDirective, fun last ends => ?_⟩
    obtain ⟨parts, outcome, written⟩ := goesOn .empty last ends
    exact ⟨parts, outcome, [], parts, rfl, rfl, written⟩
  | some name =>
    obtain ⟨first, readFirst, noDirectiveFirst, opens⟩ := exists_featureRow file name number
    obtain ⟨tokens, read, noDirective, goesOn⟩ :=
      exists_sectionsRows spacing file tree.sections (number + 1)
    refine ⟨first ++ tokens, readFirst.append read, ?_, fun last ends => ?_⟩
    · exact List.forall_mem_append.mpr ⟨noDirectiveFirst, noDirective⟩
    · -- the feature opens a section of its own before those of the bodies
      obtain ⟨heading, becomes, isFeature⟩ := opens .empty
      obtain ⟨parts, outcome, written⟩ := goesOn _ last ends
      refine ⟨⟨some heading, [], none⟩ :: parts, ?_, [⟨some heading, [], none⟩], parts, rfl,
        ⟨_, rfl, isFeature⟩, written⟩
      rw [List.append_assoc, becomes, outcome]
      rfl

/-- The rows of a document hold no line feeds. -/
theorem noFeed_rows (tree : SpecsTree) (spacing : List (Symbol .specs) → Nat → Gap) :
    ∀ row ∈ tree.rows spacing, '\n' ∉ row := by
  intro row member
  rw [rows, List.mem_append, List.mem_append] at member
  rcases member with directive | feature | section'
  · split at directive
    · rw [List.mem_singleton.mp directive]
      decide
    · exact absurd directive List.not_mem_nil
  · obtain ⟨name, _, rfl⟩ := List.mem_map.mp feature
    exact (isRow_headingRow name.isTitle 1).noFeed
  · obtain ⟨part, _, inside⟩ := List.mem_flatMap.mp section'
    rcases List.mem_cons.mp inside with rfl | line
    · exact (isRow_headingRow (isTitle_title part.part) 2).noFeed
    · obtain ⟨spec, _, rfl⟩ := List.mem_map.mp line
      exact (spec.isRow spacing).noFeed

/-- What may stand behind the last row: nothing, or an empty row behind a line feed. -/
def lastRows (isEnded : Bool) : List (List Char) := if isEnded then [[]] else []

/-- An empty last row has no tokens. -/
theorem rowTokens_lastRows (file : String) (number : Nat) (isEnded : Bool) :
    RowTokens file number (lastRows isEnded) [] := by
  cases isEnded with
  | true => exact rowTokens_empty
  | false => exact rowTokens_nil

/-- The rows of a text hold no line feeds, the last one included. -/
theorem noFeed_lastRows (tree : SpecsTree) (spacing : List (Symbol .specs) → Nat → Gap)
    (isEnded : Bool) : ∀ row ∈ tree.rows spacing ++ lastRows isEnded, '\n' ∉ row := by
  refine List.forall_mem_append.mpr ⟨tree.noFeed_rows spacing, fun row member => ?_⟩
  cases isEnded with
  | true =>
    rw [List.mem_singleton.mp member]
    exact List.not_mem_nil
  | false => exact absurd member List.not_mem_nil

/-- The directive row becomes a directive. -/
theorem exists_directiveRow (file : String) : ∃ directive feed : Token,
    RowTokens file 1 [directiveRow] [directive, feed] ∧ directive.kind = .shebang ∧
      directive.value = String.ofList directiveRow ∧ feed.kind = .newline := by
  have isRow : IsRow directiveRow :=
    ⟨by decide, "#!/grammars/specs pars".toList, 'e', by decide, by decide⟩
  have shaped : LineShape.ofLine (1 = 1) directiveRow = .shebang := by decide
  exact ⟨_, _, rowTokens_singleton isRow shaped fun _ => LineShape.noConfusion, rfl, rfl, rfl⟩

/-- The name in the directive row. -/
theorem grammarNameOf?_directiveRow : grammarNameOf? directiveRow = some Grammar.specs.name := by
  decide

/-- A text without the directive row is cut into its sections. -/
theorem exists_document_unnamed {tree : SpecsTree} (unnamed : tree.isNamed = false)
    (spacing : List (Symbol .specs) → Nat → Gap) (isEnded : Bool) (file : String) :
    ∃ document, readDocument file (tree.text spacing isEnded) = .ok document ∧
      document.directive = none ∧ tree.IsCut spacing document.sections := by
  have whole : tree.rows spacing = tree.bodyRows spacing := by
    rw [rows, unnamed]
    rfl
  have noFeed := tree.noFeed_lastRows spacing isEnded
  obtain ⟨tokens, read, noDirective, opens⟩ := tree.exists_bodyRows spacing file 1
  have readAll := read.append (rowTokens_lastRows file _ isEnded)
  rw [List.append_nil] at readAll
  rw [whole] at noFeed
  obtain ⟨document, outcome, undirected, cut⟩ :=
    readAll.exists_readDocument noFeed noDirective (tree.IsCut spacing) fun last ends => by
      obtain ⟨sections, outcome, cut⟩ := opens last ends
      exact ⟨_, outcome, cut⟩
  refine ⟨document, ?_, undirected, cut⟩
  rw [text, whole]
  exact outcome

/-- A text with the directive row is cut into its sections and names the grammar. -/
theorem exists_document_named {tree : SpecsTree} (named : tree.isNamed = true)
    (spacing : List (Symbol .specs) → Nat → Gap) (isEnded : Bool) (file : String) :
    ∃ document, readDocument file (tree.text spacing isEnded) = .ok document ∧
      document.directive.map Directive.grammar = some Grammar.specs.name ∧
      tree.IsCut spacing document.sections := by
  have whole : tree.rows spacing = [directiveRow] ++ tree.bodyRows spacing := by
    rw [rows, named]
    rfl
  have noFeed := tree.noFeed_lastRows spacing isEnded
  obtain ⟨directive, feed, readDirective, isDirective, value, isFeed⟩ := exists_directiveRow file
  obtain ⟨tokens, read, _, opens⟩ := tree.exists_bodyRows spacing file 2
  have readAll := (readDirective.append read).append (rowTokens_lastRows file _ isEnded)
  rw [List.append_nil] at readAll
  rw [whole] at noFeed
  obtain ⟨last, lexed, ends⟩ := readAll.exists_documentTokens noFeed
  obtain ⟨sections, outcome, cut⟩ := opens last ends
  have split : Document.splitDirective (directive :: feed :: tokens ++ [last]) =
      .ok (some ⟨directive, Grammar.specs.name⟩, feed :: (tokens ++ [last])) := by
    rw [List.cons_append, Document.splitDirective, if_pos isDirective, value,
      String.toList_ofList, grammarNameOf?_directiveRow]
    rfl
  -- the line end behind the directive opens nothing
  have skipped : Draft.empty.sections .prose (feed :: (tokens ++ [last])) =
      Draft.empty.sections .prose (tokens ++ [last]) := by
    refine Draft.sections_cons ?_ ?_
    · rw [isFeed]
      exact TokenKind.noConfusion
    · show Draft.empty.proseStep feed = _
      rw [Draft.proseStep, isFeed]
  refine ⟨⟨file, some ⟨directive, Grammar.specs.name⟩, sections, last.span⟩, ?_, rfl, cut⟩
  rw [text, whole]
  show readDocument file (String.ofList (['\n'].intercalate
    ([directiveRow] ++ tree.bodyRows spacing ++ lastRows isEnded))) = _
  rw [readDocument_of_documentTokens lexed]
  exact Document.ofTokens_eq split (skipped.trans outcome)

/-- **The text of a document is cut into its sections.** -/
theorem exists_document (tree : SpecsTree) (spacing : List (Symbol .specs) → Nat → Gap)
    (isEnded : Bool) (file : String) :
    ∃ document opening parts, readDocument file (tree.text spacing isEnded) = .ok document ∧
      document.directive.map Directive.grammar =
        (if tree.isNamed then some Grammar.specs.name else none) ∧
      document.sections = opening ++ parts ∧ AreOpening opening tree.feature ∧
      AreWritten spacing parts tree.sections := by
  cases named : tree.isNamed with
  | false =>
    obtain ⟨document, outcome, undirected, opening, parts, cut⟩ :=
      exists_document_unnamed named spacing isEnded file
    refine ⟨document, opening, parts, outcome, ?_, cut⟩
    rw [undirected]
    rfl
  | true =>
    obtain ⟨document, outcome, directed, opening, parts, cut⟩ :=
      exists_document_named named spacing isEnded file
    exact ⟨document, opening, parts, outcome, directed, cut⟩

end SpecsTree

end DocGrammar
