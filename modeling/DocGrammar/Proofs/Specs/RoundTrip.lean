import DocGrammar.Proofs.Specs.Documents
import DocGrammar.Proofs.Specs.Isolation

/-! # Specs documents are read back

A specs document that is written down and read again is the same document: each section of the text
succeeds, and the nodes of the sections are those of the document.

* **`SectionTree.exists_section`** — a written section is read.
* **`SpecsTree.document_reads_back`** — reading the text of a document gives back its node. -/

namespace DocGrammar

open Rule RuleState

variable {spacing : List (Symbol .specs) → Nat → Gap} {part : Section} {parts : List Section}

/-! ## Sections -/

namespace SectionTree

/-- The body of a written section is read. -/
theorem exists_bodySection (tree : SectionTree) (heading : Heading) {items : List Item}
    (texts : ∀ item ∈ items, item.isText = true)
    (values : (items.flatMap Item.lines).map Token.value =
      tree.specs.map fun spec => String.ofList (spec.text spacing))
    (state : WalkState Bool) (roomy : tree.nest ≤ state.session.nesting.room) :
    ∃ node, Specs.bodySection tree.part heading items state = .ok node state ∧
      node.bare = tree.node := by
  obtain ⟨tokens, last, code, told, ends⟩ :=
    tree.exists_bodyCode state.session.file heading texts values
  refine Specs.exists_bodySection state code (tree.reads told ends) ?_ roomy
  refine List.forall_mem_append.mpr ⟨told.kind_ne_comment, ?_⟩
  rw [List.forall_mem_singleton, ends]
  exact TokenKind.noConfusion

/-- A written section is read, and the walk remembers that a section was opened. -/
theorem exists_section (tree : SectionTree) (written : part.IsWritten tree spacing)
    (state : WalkState Bool) (roomy : tree.nest ≤ state.session.nesting.room) :
    ∃ node, sectionNodes Specs.sectionRule part state = .ok [node] { state with memory := true } ∧
      node.bare = tree.node := by
  obtain ⟨heading, headed, level, title⟩ := written.heading
  obtain ⟨node, outcome, holds⟩ := tree.exists_bodySection heading written.texts written.values
    { state with memory := true } roomy
  refine ⟨node, ?_, holds⟩
  rw [Specs.sectionNodes_body headed written.failure level title]
  show EStateM.bind (Specs.bodySection tree.part heading part.items) _ { state with memory := true }
    = _
  unfold EStateM.bind
  rw [outcome]
  rfl

end SectionTree

/-! ## Features -/

/-- A written feature is read unless a section was opened before. -/
theorem FeatureName.exists_section (name : FeatureName) (written : part.IsFeature name)
    (session : Session) :
    ∃ node, sectionNodes Specs.sectionRule part ⟨session, false⟩ = .ok [node] ⟨session, true⟩ ∧
      node.bare = name.node := by
  obtain ⟨heading, headed, level, title⟩ := written.heading
  -- the title is the mark of a feature with the name behind it
  have known : Specs.featureTail? heading.title.value = some (' ' :: name.text.toList) := by
    rw [title, Specs.featureTail?, String.toList_ofList]
    rfl
  have trimmed : String.ofList (trim (' ' :: name.text.toList)) = name.text := by
    have same : trim (' ' :: name.text.toList) = trim name.text.toList := by
      rw [trim, trimWhile, List.dropWhile_cons_of_pos (by decide)]
      rfl
    rw [same, name.isTrimmed, String.ofList_toList]
  have isNamed : name.text.isEmpty = false := by
    rw [Bool.eq_false_iff]
    intro empty
    exact name.nonempty (by rw [String.isEmpty_iff.mp empty]; rfl)
  refine ⟨.spanning .featureSection [Specs.nameNode heading.title name.text] (some heading.span),
    ?_, rfl⟩
  rw [Specs.sectionNodes_headed headed written.failure, Specs.headedSection_feature known level]
  show EStateM.bind (Specs.feature heading part.items _) _ ⟨session, true⟩ = _
  unfold EStateM.bind Specs.feature
  simp only [trimmed, isNamed, written.items]
  rfl

/-! ## Walks -/

/-- Written sections are read one after the other. -/
theorem AreWritten.exists_walk {trees : List SectionTree} (written : AreWritten spacing parts trees)
    (state : WalkState Bool) (roomy : ∀ tree ∈ trees, tree.nest ≤ state.session.nesting.room) :
    ∃ nodes final, walkSections Specs.sectionRule Specs.isHeading parts state = .ok nodes final ∧
      final.session = state.session ∧ nodes.map Node.bare = trees.map SectionTree.node := by
  induction written generalizing state with
  | nil => exact ⟨[], state, by rw [walkSections]; rfl, rfl, rfl⟩
  | @cons part tree parts trees first others ih =>
    obtain ⟨node, outcome, holds⟩ :=
      tree.exists_section first state (roomy tree List.mem_cons_self)
    obtain ⟨nodes, final, walked, same, others⟩ := ih { state with memory := true }
      fun other member => roomy other (List.mem_cons_of_mem _ member)
    refine ⟨[node] ++ nodes, final, ?_, same, ?_⟩
    · rw [walkSections_of_ok outcome, walked]
    · rw [List.map_append, List.map_singleton, holds, others]
      rfl

/-- A written feature is read before written sections. -/
theorem AreOpening.exists_walk {opening : List Section} {feature : Option FeatureName}
    (isOpening : AreOpening opening feature) {trees : List SectionTree}
    (written : AreWritten spacing parts trees) (session : Session)
    (roomy : ∀ tree ∈ trees, tree.nest ≤ session.nesting.room) :
    ∃ nodes final, walkSections Specs.sectionRule Specs.isHeading (opening ++ parts)
        ⟨session, false⟩ = .ok nodes final ∧ final.session = session ∧
      nodes.map Node.bare =
        feature.toList.map FeatureName.node ++ trees.map SectionTree.node := by
  cases feature with
  | none =>
    rw [show opening = [] from isOpening]
    exact written.exists_walk ⟨session, false⟩ roomy
  | some name =>
    obtain ⟨part, rfl, isFeature⟩ := isOpening
    obtain ⟨node, outcome, holds⟩ := name.exists_section isFeature session
    obtain ⟨nodes, final, walked, same, others⟩ := written.exists_walk ⟨session, true⟩ roomy
    refine ⟨[node] ++ nodes, final, ?_, same, ?_⟩
    · rw [List.singleton_append, walkSections_of_ok outcome, walked]
    · rw [List.map_append, List.map_singleton, holds, others]
      rfl

/-! ## Documents -/

namespace SpecsTree

/-- A document is nested at most as deep as its lines have symbols. -/
theorem nest_le_length (tree : SpecsTree) : tree.nest ≤ tree.symbols.length := by
  refine foldr_max_le fun value member => ?_
  obtain ⟨part, inside, rfl⟩ := List.mem_map.mp member
  refine foldr_max_le fun value member => ?_
  obtain ⟨spec, line, rfl⟩ := List.mem_map.mp member
  have light := spec.nest_le_weight
  have count : weight spec.symbols ≤ spec.symbols.length := List.countP_le_length
  have within : spec.symbols.Sublist tree.symbols := by
    have first : spec.symbols.Sublist (part.specs.flatMap SpecTree.symbols) :=
      List.sublist_flatten_of_mem (List.mem_map_of_mem line)
    exact first.trans (List.sublist_flatten_of_mem (List.mem_map_of_mem inside))
  exact Nat.le_trans light (Nat.le_trans count within.length_le)

/-- The node of the directive of a document. -/
theorem bare_directive {directive : Option Directive} {isNamed : Bool}
    (named : directive.map Directive.grammar = if isNamed then some Grammar.specs.name else none) :
    (directive.map Directive.node).toList.map Node.bare =
      if isNamed then [directiveNode] else [] := by
  cases isNamed with
  | false =>
    rw [Option.map_eq_none_iff.mp named]
    rfl
  | true =>
    obtain ⟨found, rfl, grammar⟩ := Option.map_eq_some_iff.mp named
    show [found.node.bare] = [directiveNode]
    rw [Directive.node, Node.bare_spanning, List.map_singleton, Node.bare_leafOf, grammar]
    rfl

/-- **A specs document is read back from its text.** However the symbols of its lines are spaced,
and whether or not it names its grammar, the parse of the text with the specs grammar as the default
succeeds and yields the tree of the document, provided that the limit admits its nesting, which is
at most the number of the symbols of its lines. -/
theorem document_reads_back (tree : SpecsTree) (spacing : List (Symbol .specs) → Nat → Gap)
    (isEnded : Bool) (file : String) (limit : Int) (positive : 1 ≤ limit)
    (roomy : tree.nest ≤ limit) :
    let parse := parseDocument Registry.builtIn file limit (some Grammar.specs.name)
      (tree.text spacing isEnded)
    tree.nest ≤ tree.symbols.length ∧ parse.isSuccess = true ∧
      ∃ node, parse.tree = some node ∧ node.sameAs tree.node = true := by
  intro parse
  refine ⟨tree.nest_le_length, ?_⟩
  obtain ⟨document, opening, parts, read, named, sections, isOpening, written⟩ :=
    tree.exists_document spacing isEnded file
  -- the directive names the default grammar or there is none
  have selected : (document.directive.map Directive.grammar).or (some Grammar.specs.name) =
      some Grammar.specs.name := by
    rw [named]
    cases tree.isNamed <;> rfl
  have room : ∀ part ∈ tree.sections,
      part.nest ≤ (⟨file, ⟨limit.toNat, 0⟩, [], [.parsing file Grammar.specs.name]⟩ :
        Session).nesting.room := by
    intro part member
    have inside : part.nest ≤ tree.nest := le_foldr_max (List.mem_map_of_mem member)
    show part.nest ≤ limit.toNat - 0
    omega
  obtain ⟨nodes, final, walked, same, holds⟩ := isOpening.exists_walk written _ room
  have parsed : parse = ⟨some (document.root nodes), final.session.diagnostics,
      some Grammar.specs.name, final.session.events⟩ := by
    show parseDocument _ _ _ _ _ = _
    rw [parseDocument_of_read _ _ positive read, selected, walksBy_specs.parseSections_eq, sections,
      walked]
  refine ⟨?_, document.root nodes, by rw [parsed], ?_⟩
  · rw [parsed, ParseResult.isSuccess, same]
    rfl
  · refine Node.sameAs_of_bare ?_
    rw [Document.root, Node.bare_spanning, List.map_append, bare_directive named, holds]
    rfl

/-- A feature with an input of a generic type and a bound, for which a depth of two is enough. -/
theorem document_reads_back_transfer :
    let amount : SpecName := ⟨"amount", by decide +kernel, by decide +kernel⟩
    let list : SpecName := ⟨"List", by decide +kernel, by decide +kernel⟩
    let number : SpecName := ⟨"number", by decide +kernel, by decide +kernel⟩
    let bound : Numeral := ⟨['5'], [], List.cons_ne_nil _ _, by decide, rfl⟩
    let type : TypeTree .specs := .of (.of (.generic list (.of (.of (.name number) 0) []) []) 0) []
    let inputs : SectionTree := ⟨.inputs, [.input amount type], SpecSection.noConfusion⟩
    let constraints : SectionTree :=
      ⟨.constraints, [.comparison ⟨amount, []⟩ ⟨.lessEqual, rfl⟩
        (.literal (.number ⟨true, bound⟩))],
        SpecSection.noConfusion⟩
    let feature : FeatureName :=
      ⟨"Transfer", by decide +kernel, by decide +kernel, by decide +kernel⟩
    let tree : SpecsTree := ⟨true, some feature, [inputs, constraints]⟩
    let spacing : List (Symbol .specs) → Nat → Gap := fun _ _ => ⟨[' '], rfl⟩
    let parse := parseDocument Registry.builtIn "f" 2 (some Grammar.specs.name)
      (tree.text spacing true)
    tree.text spacing true = "#!/grammars/specs parse\n# Feature: Transfer\n" ++
        "## Inputs\namount : List < number >\n## Constraints\namount <= - 5\n" ∧
      tree.nest ≤ (2 : Int) ∧ tree.nest ≤ tree.symbols.length ∧ parse.isSuccess = true ∧
      ∃ node, parse.tree = some node ∧ node.sameAs tree.node = true := by
  intro amount list number bound type inputs constraints feature tree spacing parse
  have roomy : tree.nest ≤ (2 : Int) := by decide
  exact ⟨by decide +kernel, roomy,
    document_reads_back tree spacing true "f" 2 (by decide) roomy⟩

end SpecsTree

end DocGrammar
