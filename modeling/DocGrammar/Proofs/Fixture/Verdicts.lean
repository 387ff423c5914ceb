import DocGrammar.Fixture.Run
import DocGrammar.Proofs.Documents.Outcome
import DocGrammar.Proofs.Fixture.Cases
import DocGrammar.Proofs.Fixture.Differences
import DocGrammar.Proofs.Trees.Rendered
import DocGrammar.Proofs.Types.Acceptance

/-! # Verdicts and differences

A case passes if the expected outline accepts the tree, and a failed case shows how the rendered
outline differs from the rendered tree. The rendering says all that the outline states, but it is
compared line by line, and all line breaks end a line. So the one way to fail without a difference
is a text with another kind of line break than expected.

* **`Node.HasNames`** — a tree under whose nodes stand names; every tree of a parse is one.
* **`CaseResult.diff_ofParse_eq_empty_iff`** — when a case shows no difference.
* **`runCase_diff_eq_empty_iff`**, **`runFixture_diff_eq_empty_iff`** — the same for what is run. -/

namespace DocGrammar

/-! ## Field names of trees -/

namespace NodeKind

/-- The field names of all contents are names. -/
theorem isName_of_mem_contents {kind : NodeKind} {dialect : Dialect} {slots : List Slot}
    (member : slots ∈ kind.contents dialect) : ∀ slot ∈ slots, ∀ name ∈ slot.field,
    isName name = true := by
  have all : ((kind.contents dialect).all fun slots =>
      slots.all fun slot => slot.field.all isName) = true := by
    cases dialect <;> cases kind <;> decide +kernel
  intro slot inside name own
  have named := List.all_eq_true.mp (List.all_eq_true.mp all slots member) slot inside
  rw [Option.mem_def.mp own] at named
  exact named

end NodeKind

namespace Slot

/-- A node among others is admitted by a slot, or is among those that the slot leaves. -/
theorem admits_or_mem_dropWhile {slot : Slot} {nodes : List Node} {node : Node}
    (member : node ∈ nodes) :
    slot.admits node = true ∨ node ∈ nodes.dropWhile slot.admits := by
  rw [← List.takeWhile_append_dropWhile (p := slot.admits) (l := nodes), List.mem_append] at member
  exact member.imp_left fun taken => List.mem_takeWhile_imp taken

/-- Nodes that fill slots stand under the field names of these. -/
theorem exists_field_of_fill {slots : List Slot} {nodes : List Node}
    (filled : fill slots nodes = true) :
    ∀ node ∈ nodes, ∃ slot ∈ slots, node.field = slot.field := by
  induction slots generalizing nodes with
  | nil =>
    rw [List.isEmpty_iff.mp filled]
    exact List.forall_mem_nil _
  | cons slot slots ih =>
    -- the slot takes the node, or leaves it to the others
    have settle : ∀ {left : List Node}, fill slots left = true → ∀ {node : Node},
        slot.admits node = true ∨ node ∈ left → ∃ own ∈ slot :: slots, node.field = own.field := by
      rintro left others node (admitted | member)
      · exact ⟨slot, List.mem_cons_self, (admits_iff.mp admitted).2.1⟩
      · obtain ⟨own, inside, field⟩ := ih others node member
        exact ⟨own, List.mem_cons_of_mem _ inside, field⟩
    intro node member
    rw [fill] at filled
    split at filled
    · obtain ⟨first, others⟩ := Bool.and_eq_true_iff.mp filled
      cases nodes with
      | nil => cases member
      | cons head tail =>
        rcases List.mem_cons.mp member with rfl | behind
        · exact settle others (.inl first)
        · exact settle others (.inr behind)
    · cases nodes with
      | nil => cases member
      | cons head tail =>
        split at filled
        · next first =>
          rcases List.mem_cons.mp member with rfl | behind
          · exact settle filled (.inl first)
          · exact settle filled (.inr behind)
        · exact settle filled (.inr member)
    · exact settle filled (admits_or_mem_dropWhile member)
    · exact settle (Bool.and_eq_true_iff.mp filled).2 (admits_or_mem_dropWhile member)

end Slot

namespace Node

/-- Whether the field names of a tree are names. -/
def HasNames (tree : Node) : Prop :=
  ∀ node ∈ tree.walk, ∀ name ∈ node.field, isName name = true

variable {dialect : Dialect}

mutual

/-- A tree that conforms has names if it stands under a name. -/
theorem hasNames_of_named : ∀ tree : Node, tree.conforms dialect = true →
    (∀ name ∈ tree.field, isName name = true) → tree.HasNames
  | ⟨kind, children, text, field, span⟩, conforms, named => by
    obtain ⟨fits, below⟩ := conforms_iff.mp conforms
    obtain ⟨slots, member, filled⟩ := List.any_eq_true.mp (Bool.and_eq_true_iff.mp fits).2
    refine forall_mem_walk.mpr ⟨named, hasNames_of_allNamed children below fun child inside => ?_⟩
    obtain ⟨slot, own, field⟩ := Slot.exists_field_of_fill filled child inside
    rw [field]
    exact NodeKind.isName_of_mem_contents member slot own

theorem hasNames_of_allNamed : ∀ trees : List Node,
    (∀ tree ∈ trees, tree.conforms dialect = true) →
    (∀ tree ∈ trees, ∀ name ∈ tree.field, isName name = true) → ∀ tree ∈ trees, tree.HasNames
  | [], _, _ => List.forall_mem_nil _
  | tree :: others, conform, named => by
    obtain ⟨conforms, inside⟩ := List.forall_mem_cons.mp conform
    obtain ⟨here, below⟩ := List.forall_mem_cons.mp named
    exact List.forall_mem_cons.mpr
      ⟨hasNames_of_named tree conforms here, hasNames_of_allNamed others inside below⟩

end

/-- A tree that a document is parsed as has names. -/
theorem hasNames_of_parseDocument {file : String} {limit : Int} {defaultGrammar : Option String}
    {text : String} {tree : Node}
    (yields : (parseDocument .builtIn file limit defaultGrammar text).tree = some tree) :
    tree.HasNames := by
  obtain ⟨source, nodes, dialect, rfl, _, _, holds⟩ := exists_of_tree yields
  exact hasNames_of_named _ (source.conforms_root holds.holds) (fun _ none => nomatch none)

/-- A tree that a text is parsed as a type has names. -/
theorem hasNames_of_parseType {file : String} {limit : Int} {text : String} {tree : Node}
    (yields : (parseType file limit text).tree = some tree) : tree.HasNames := by
  obtain ⟨positive, tokens, lexed⟩ := exists_tokens_of_parseType yields
  have ends : EndsInput (WalkM.seen tokens) := (codeRead_of_codeTokensFrom rfl lexed).endsInput
  rw [parseType_of_tokens positive lexed, WalkM.run_eq, WalkM.runRule_eq _ ends.ne_nil] at yields
  cases outcome : TypeExpr.complete (.facing [] (WalkM.seen tokens) ⟨limit.toNat, 0⟩) with
  | error failure final =>
    rw [outcome] at yields
    cases yields
  | ok node final =>
    rw [outcome] at yields
    cases yields
    obtain ⟨whole, _, rfl, _⟩ := TypeExpr.exists_form_of_complete ends outcome
    have built : Built .specs [.typeSpecification] whole.type.tokens [whole.type.node] :=
      whole.type.built
    have field := built.fields _ List.mem_cons_self
    refine hasNames_of_named _ (built.conform _ List.mem_cons_self) fun name own => ?_
    rw [field] at own
    cases own

mutual

/-- The outline of a tree with names has names. -/
theorem hasNames_childOutline (detail : OutlineDetail) : ∀ node : Node, node.HasNames →
    (childOutline detail node).Everywhere Outline.HasNames
  | ⟨kind, children, text, field, span⟩, named => by
    obtain ⟨here, below⟩ := List.forall_mem_cons.mp named
    refine .node ⟨isName_of_isFieldName kind.isFieldName_name, fun name stated => ?_⟩
      (hasNames_childOutlines detail children below)
    simp only [childOutline] at stated
    split at stated
    · exact here name stated
    · cases stated

theorem hasNames_childOutlines (detail : OutlineDetail) : ∀ nodes : List Node,
    (∀ node ∈ walkAll nodes, ∀ name ∈ node.field, isName name = true) →
    ∀ child ∈ childOutlines detail nodes, child.Everywhere Outline.HasNames
  | [], _ => List.forall_mem_nil _
  | node :: others, named => by
    obtain ⟨here, below⟩ := List.forall_mem_append.mp named
    exact List.forall_mem_cons.mpr
      ⟨hasNames_childOutline detail node here, hasNames_childOutlines detail others below⟩

end

theorem hasNames_outline (detail : OutlineDetail) {node : Node} (named : node.HasNames) :
    (node.outline detail).Everywhere Outline.HasNames := by
  cases hasNames_childOutline detail node named with
  | node here inside => exact .node ⟨here.kind, fun _ none => nomatch none⟩ inside

end Node

/-! ## Lines of trees and of no tree -/

/-- The line for no tree is not that of an outline. -/
theorem Outline.textLines_pretty_ne_noTree {outline : Outline} {indent : String}
    (inLine : '\n' ∉ indent.toList) (named : outline.Everywhere HasNames) :
    textLines (outline.pretty indent) ≠ [noTreeText] := by
  intro same
  have spelled : (outline.pretty indent).toList.map plainBreak =
      '(' :: ("no".toList ++ " tree)".toList) := by
    have single : [noTreeText] = (feedLines noTreeText.toList).map String.ofList := by decide
    rw [textLines_pretty inLine named, single, List.map_inj_right fun _ _ => String.ofList_inj.mp,
      feedLines_inj] at same
    exact same
  have whole := map_plainBreak_prettyLines indent 0 outline []
  rw [← cons_map_plainBreak_pretty, spelled] at whole
  cases named with
  | node here _ =>
  rw [map_plainBreak_opening here.kind] at whole
  have labels : (label none).toList.map plainBreak ++ '(' :: ("no".toList ++ " tree)".toList) =
      (label outline.field).toList.map plainBreak ++ '(' :: (outline.kind.toList ++
        behindKind outline.text ((fed (prettyChildren indent 1 outline.children)).map plainBreak ++
          [')'])) := (List.cons.inj whole).2
  have noField : ∀ name ∈ (none : Option String), isName name = true := nofun
  obtain ⟨_, names⟩ := label_append_inj noField here.field labels
  have ends := endsOpening_prettyChildren indent 1 outline.children []
  have no : isName "no" = true := by decide +kernel
  obtain ⟨_, behind⟩ := name_append_inj no here.kind (by rintro _ ⟨⟩; decide +kernel)
    (stops_behindKind outline.text ends) names
  -- behind the kind and a space there would be a text in quotes
  cases text : outline.text with
  | none =>
    rw [text] at behind
    obtain ⟨more, closes | breaks⟩ := ends
    · rw [closes] at behind
      exact absurd (List.cons.inj behind).1 (by decide)
    · rw [breaks] at behind
      exact absurd (List.cons.inj behind).1 (by decide)
  | some own =>
    rw [text] at behind
    exact absurd (List.cons.inj (List.cons.inj behind).2).1 (by decide)

/-- The lines of the expected outline are those of the actual tree exactly if there is a tree whose
outline differs in nothing but kinds of line breaks. -/
theorem textLines_eq_actualLines_iff {expected : Outline} {tree : Option Node}
    (named : expected.Everywhere Outline.HasNames)
    (actual : ∀ node ∈ tree, node.HasNames) :
    textLines (expected.pretty Outline.standardIndent) = actualLines expected tree ↔
      ∃ node ∈ tree, expected.levelled = (node.outline expected.detail).levelled := by
  have inLine : '\n' ∉ Outline.standardIndent.toList := by decide
  cases tree with
  | none => simp [actualLines, Outline.textLines_pretty_ne_noTree inLine named]
  | some node =>
    have same := Outline.textLines_pretty_eq_iff inLine named
      (Node.hasNames_outline expected.detail (actual node rfl))
    simpa [actualLines] using same

/-! ## Verdicts -/

/-- Texts joined to an empty one are none, if the first of them is not empty. -/
theorem intercalate_eq_empty_iff {separator : String} {texts : List String}
    (first : ∀ text ∈ texts.head?, text ≠ "") : separator.intercalate texts = "" ↔ texts = [] := by
  refine ⟨fun empty => ?_, fun none => none ▸ rfl⟩
  have chars := congrArg String.toList empty
  rw [String.toList_intercalate] at chars
  cases texts with
  | nil => rfl
  | cons text others =>
    refine absurd (String.toList_eq_nil_iff.mp ?_) (first text rfl)
    cases others with
    | nil => simpa using chars
    | cons next others =>
      rw [List.map_cons, List.map_cons, List.intercalate_cons_cons] at chars
      exact (List.append_eq_nil_iff.mp (List.append_eq_nil_iff.mp chars).1).1

/-- The first line of a difference names the first text. -/
theorem eq_of_mem_head?_unifiedDiff {name otherName line : String} {first second : List String}
    (heads : line ∈ (unifiedDiff name otherName first second).head?) : line = "--- " ++ name := by
  unfold unifiedDiff at heads
  dsimp only at heads
  split at heads
  · cases heads
  · exact (Option.some.inj heads).symm

namespace CaseResult

variable {case : FixtureCase} {result : ParseResult}

/-- The report of a failed case is empty exactly if there are neither different lines nor
diagnostics. -/
theorem report_eq_empty_iff (first second : List String) (diagnostics : List Diagnostic) :
    "\n".intercalate (unifiedDiff "expected" "actual" first second ++
        diagnostics.map fun diagnostic => "diagnostic: " ++ diagnostic.display) = "" ↔
      first = second ∧ diagnostics = [] := by
  rw [intercalate_eq_empty_iff, List.append_eq_nil_iff, unifiedDiff_eq_nil_iff, List.map_eq_nil_iff]
  intro line heads
  rw [List.head?_append, Option.mem_def, Option.or_eq_some_iff] at heads
  rcases heads with diff | ⟨_, report⟩
  · rw [eq_of_mem_head?_unifiedDiff diff]
    decide
  · rw [List.head?_map, Option.map_eq_some_iff] at report
    obtain ⟨diagnostic, _, rfl⟩ := report
    intro empty
    exact absurd (congrArg String.toList empty) (by simp)

/-- A case passes if its tree is accepted and there are no diagnostics. -/
theorem passed_ofParse : (ofParse case result).passed =
    ((result.tree.map case.expected.accepts).getD false && result.diagnostics.isEmpty) := by
  unfold ofParse
  dsimp only
  split
  · next accepted => exact accepted.symm
  · next refused => exact (Bool.eq_false_iff.mpr refused).symm

/-- A case shows no difference exactly if it passes, or if its input is parsed without diagnostics
to a tree that is not accepted for nothing but the kinds of its line breaks. -/
theorem diff_ofParse_eq_empty_iff (named : case.expected.Everywhere Outline.HasNames)
    (actual : ∀ node ∈ result.tree, node.HasNames) :
    (ofParse case result).diff = "" ↔ (ofParse case result).passed = true ∨
      (result.diagnostics = [] ∧ ∃ tree, result.tree = some tree ∧
        case.expected.accepts tree = false ∧
        case.expected.levelled = (tree.outline case.expected.detail).levelled) := by
  unfold ofParse
  dsimp only
  split
  · exact ⟨fun _ => .inl rfl, fun _ => rfl⟩
  · next failed =>
    rw [report_eq_empty_iff, textLines_eq_actualLines_iff named actual]
    constructor
    · rintro ⟨⟨tree, yields, alike⟩, silent⟩
      refine .inr ⟨silent, tree, yields, ?_, alike⟩
      rw [Option.mem_def.mp yields, silent] at failed
      simpa using failed
    · rintro (passed | ⟨silent, tree, yields, _, alike⟩)
      · cases passed
      · exact ⟨⟨tree, yields, alike⟩, silent⟩

/-- If the expected texts have no line breaks but line feeds, a case shows no difference exactly if
it passes. -/
theorem diff_ofParse_eq_empty_iff_passed (named : case.expected.Everywhere Outline.HasNames)
    (actual : ∀ node ∈ result.tree, node.HasNames)
    (feeds : case.expected.Everywhere Outline.HasOnlyFeeds) :
    (ofParse case result).diff = "" ↔ (ofParse case result).passed = true := by
  rw [diff_ofParse_eq_empty_iff named actual]
  refine or_iff_left ?_
  rintro ⟨_, tree, _, refused, alike⟩
  -- an outline without other line breaks is the one that it is like, which accepts the tree
  have same := Outline.eq_of_levelled _ _ feeds alike
  have accepted := Node.accepts_outline case.expected.detail tree
  rw [← same, refused] at accepted
  cases accepted

end CaseResult

/-! ## Cases that are run -/

/-- What the input of a case is parsed as. -/
def FixtureCase.parsed (case : FixtureCase) (parse : String → Option String → Id ParseResult)
    (defaultGrammar : Option String) : ParseResult :=
  if case.isType then parseType inputFile defaultLimit case.input
  else (parse case.input (case.grammar.or defaultGrammar)).run

theorem run_runCase (case : FixtureCase) (parse : String → Option String → Id ParseResult)
    (defaultGrammar : Option String) :
    (runCase parse defaultGrammar case).run =
      CaseResult.ofParse case (case.parsed parse defaultGrammar) := by
  unfold runCase FixtureCase.parsed
  split <;> rfl

/-- What is parsed has names if the given parser yields trees with names. -/
theorem FixtureCase.hasNames_parsed {parse : String → Option String → Id ParseResult}
    (yields : ∀ text grammar, ∀ tree ∈ (parse text grammar).run.tree, tree.HasNames)
    (defaultGrammar : Option String) (case : FixtureCase) :
    ∀ tree ∈ (case.parsed parse defaultGrammar).tree, tree.HasNames := by
  unfold parsed
  split
  · exact fun tree => Node.hasNames_of_parseType
  · exact yields _ _

/-- The registered grammars yield trees with names. -/
theorem hasNames_registryParse (text : String) (grammar : Option String) :
    ∀ tree ∈ (registryParse .builtIn text grammar).run.tree, tree.HasNames :=
  fun tree yields => Node.hasNames_of_parseDocument
    (show (parseDocument .builtIn inputFile defaultLimit grammar text).tree = some tree from yields)

/-- **A case that fails shows a difference, but for kinds of line breaks.** For a parser whose trees
have names for field names, a case shows no difference exactly if it passes, or if its input is
parsed without diagnostics to a tree that the expected outline refuses for nothing but the kinds of
line breaks in texts, which end lines all alike. If the expected texts have no other line breaks
than line feeds, it shows none exactly if it passes. -/
theorem runCase_diff_eq_empty_iff (parse : String → Option String → Id ParseResult)
    (defaultGrammar : Option String) (case : FixtureCase)
    (yields : ∀ text grammar, ∀ tree ∈ (parse text grammar).run.tree, tree.HasNames)
    (named : case.expected.Everywhere Outline.HasNames) :
    let parsed := case.parsed parse defaultGrammar
    let result := (runCase parse defaultGrammar case).run
    (result.diff = "" ↔ result.passed = true ∨
      (parsed.diagnostics = [] ∧ ∃ tree, parsed.tree = some tree ∧
        case.expected.accepts tree = false ∧
        case.expected.levelled = (tree.outline case.expected.detail).levelled)) ∧
    (case.expected.Everywhere Outline.HasOnlyFeeds →
      (result.diff = "" ↔ result.passed = true)) := by
  intro parsed result
  have actual := FixtureCase.hasNames_parsed yields defaultGrammar case
  rw [show result = _ from run_runCase case parse defaultGrammar]
  exact ⟨CaseResult.diff_ofParse_eq_empty_iff named actual,
    CaseResult.diff_ofParse_eq_empty_iff_passed named actual⟩

/-- A feed where there is a return fails a case, and the difference shows it. -/
theorem runCase_diff_eq_empty_iff_feed :
    let parse : String → Option String → Id ParseResult := fun _ _ =>
      pure ⟨some ⟨.stringLiteral, [], some "a\rb", none, none⟩, [], none, []⟩
    let case : FixtureCase := ⟨"feed", "", ⟨"string_literal", some "a\nb", none, []⟩, 1,
      ⟨none, none⟩⟩
    (∀ text grammar, ∀ tree ∈ (parse text grammar).run.tree, tree.HasNames) ∧
    case.expected.Everywhere Outline.HasNames ∧ case.expected.Everywhere Outline.HasOnlyFeeds ∧
    (runCase parse none case).run.passed = false ∧ (runCase parse none case).run.diff ≠ "" := by
  intro parse case
  have yields : ∀ text grammar, ∀ tree ∈ (parse text grammar).run.tree, tree.HasNames := by
    rintro _ _ _ ⟨⟩
    exact List.forall_mem_singleton.mpr nofun
  have named : case.expected.Everywhere Outline.HasNames :=
    .node ⟨by decide +kernel, nofun⟩ (List.forall_mem_nil _)
  have feeds : case.expected.Everywhere Outline.HasOnlyFeeds := by
    refine .node ?_ (List.forall_mem_nil _)
    rintro _ ⟨⟩ char member
    rw [show "a\nb".toList = ['a', '\n', 'b'] from rfl, List.mem_cons, List.mem_cons,
      List.mem_singleton] at member
    rcases member with rfl | rfl | rfl <;> decide
  have failed : (runCase parse none case).run.passed = false := by decide +kernel
  -- without a difference the case would pass, since what is expected has feeds only
  refine ⟨yields, named, feeds, failed, fun silent => ?_⟩
  have passed := ((runCase_diff_eq_empty_iff parse none case yields named).2 feeds).mp silent
  rw [failed] at passed
  cases passed

/-- A case that expects a vertical tab in a string of pseudo code where there is a return. -/
def mixedBreaks : FixtureCase :=
  let literal : Outline := ⟨"string_literal", some "a\x0bb", none, []⟩
  let statement : Outline := ⟨"expression_statement", none, none, [literal]⟩
  let block : Outline := ⟨"pseudo_code_block", none, none, [statement]⟩
  ⟨"breaks", "```pseudo\n\"a\rb\"\n```", ⟨"source_file", none, none, [block]⟩, 1, ⟨none, none⟩⟩

theorem hasNames_mixedBreaks : mixedBreaks.expected.Everywhere Outline.HasNames := by
  refine .node ⟨by decide +kernel, nofun⟩ (List.forall_mem_singleton.mpr ?_)
  refine .node ⟨by decide +kernel, nofun⟩ (List.forall_mem_singleton.mpr ?_)
  refine .node ⟨by decide +kernel, nofun⟩ (List.forall_mem_singleton.mpr ?_)
  exact .node ⟨by decide +kernel, nofun⟩ (List.forall_mem_nil _)

/-- Both end a line, so the case fails without a difference. -/
theorem mixedBreaks_fails_alike :
    (runCase (registryParse .builtIn) (some "pseudo-kernel") mixedBreaks).run.passed = false ∧
    (runCase (registryParse .builtIn) (some "pseudo-kernel") mixedBreaks).run.diff = "" := by
  have silent : (parseDocument .builtIn inputFile defaultLimit (some "pseudo-kernel")
      "```pseudo\n\"a\rb\"\n```").diagnostics.isEmpty = true := by cbv
  have refused : (parseDocument .builtIn inputFile defaultLimit (some "pseudo-kernel")
      "```pseudo\n\"a\rb\"\n```").tree.map mixedBreaks.expected.accepts = some false := by
    decide +kernel
  have alike : (parseDocument .builtIn inputFile defaultLimit (some "pseudo-kernel")
      "```pseudo\n\"a\rb\"\n```").tree.map (fun tree => (tree.outline ⟨false, true⟩).levelled) =
      some mixedBreaks.expected.levelled := by cbv
  have detail : mixedBreaks.expected.detail = ⟨false, true⟩ := rfl
  obtain ⟨tree, yields, refuses⟩ := Option.map_eq_some_iff.mp refused
  have actual := FixtureCase.hasNames_parsed hasNames_registryParse (some "pseudo-kernel")
    mixedBreaks
  rw [Option.map_eq_some_iff] at alike
  obtain ⟨_, yields', levels⟩ := alike
  -- both facts are about the one tree that the text is parsed to
  cases yields.symm.trans yields'
  rw [run_runCase, CaseResult.passed_ofParse, CaseResult.diff_ofParse_eq_empty_iff
    hasNames_mixedBreaks
    actual]
  refine ⟨?_, .inr ⟨List.isEmpty_iff.mp silent, tree, yields, refuses, ?_⟩⟩
  · rw [show (mixedBreaks.parsed (registryParse .builtIn) (some "pseudo-kernel")).tree
        = some tree from
      yields, Option.map_some, refuses]
    rfl
  · rw [detail, levels]

/-- The cases of a file that are parsed by the registered grammars show no difference exactly if
they pass, provided that their expected texts have no other line breaks than line feeds. -/
theorem runFixture_diff_eq_empty_iff (defaultGrammar : Option String) {text : String}
    {cases : List FixtureCase} (reads : readFixture text = .ok cases)
    (feeds : ∀ case ∈ cases, case.expected.Everywhere Outline.HasOnlyFeeds) :
    ∃ results, (runFixture (registryParse .builtIn) defaultGrammar text).run = .ok results ∧
      ∀ result ∈ results, result.diff = "" ↔ result.passed = true := by
  refine ⟨cases.map fun case => (runCase (registryParse .builtIn) defaultGrammar case).run, ?_, ?_⟩
  · unfold runFixture
    rw [reads]
    simp
  · refine List.forall_mem_map.mpr fun case member => ?_
    obtain ⟨blanks, lines, _, _, cut⟩ := exists_of_readFixture text
    obtain ⟨written, isRead⟩ := exists_read_of_mem_casesFrom (cut.symm.trans reads) case member
    rw [run_runCase]
    exact CaseResult.diff_ofParse_eq_empty_iff_passed (Outline.hasNames_of_read isRead)
      (FixtureCase.hasNames_parsed hasNames_registryParse defaultGrammar case) (feeds case member)

end DocGrammar
