import DocGrammar.Proofs.Documents.Read
import DocGrammar.Proofs.Documents.Walked
import DocGrammar.Proofs.Types.Line

/-! # Documents of one section

A text without a directive whose rows make up a single section is parsed as the section is read:
the parse succeeds exactly if the rule of sections does, and its tree is the root above the nodes of
the section.

* **`RowTokens.exists_readDocument`** — rows without a directive are cut into sections.
* **`Grammar.WalksBy`** — the walk that a grammar reads documents by.
* **`ReadsSection`** — a text is a single section.
* **`Grammar.WalksBy.parse_section`** — what the text is parsed as. -/

namespace DocGrammar

/-! ## Rows without a directive -/

variable {file : String} {rows : List (List Char)} {tokens : List Token}

/-- Rows that no directive stands on are cut into sections. -/
theorem RowTokens.exists_readDocument (read : RowTokens file 1 rows tokens)
    (noFeed : ∀ row ∈ rows, '\n' ∉ row) (noDirective : ∀ token ∈ tokens, token.kind ≠ .shebang)
    (good : List Section → Prop)
    (cuts : ∀ last : Token, last.kind = .endOfInput → ∃ parts,
      Draft.empty.sections .prose (tokens ++ [last]) = .ok parts ∧
        good (Document.dropEmptyPreamble parts)) :
    ∃ source, readDocument file (String.ofList (['\n'].intercalate rows)) = .ok source ∧
      source.directive = none ∧ good source.sections := by
  obtain ⟨last, lexed, ends⟩ := read.exists_documentTokens noFeed
  obtain ⟨parts, cut, holds⟩ := cuts last ends
  -- the first token is no directive, be it of a row or the end of the input
  have split : Document.splitDirective (tokens ++ [last]) = .ok (none, tokens ++ [last]) := by
    cases tokens with
    | nil =>
      refine Document.splitDirective_of_other ?_ []
      rw [ends]
      exact TokenKind.noConfusion
    | cons token others =>
      exact Document.splitDirective_of_other (noDirective token List.mem_cons_self) _
  refine ⟨⟨file, none, Document.dropEmptyPreamble parts, last.span⟩, ?_, rfl, holds⟩
  rw [readDocument_of_documentTokens lexed]
  exact Document.ofTokens_eq split cut

/-! ## Grammars that walk over sections -/

variable {μ : Type} {rule : Section → WalkM μ (List Node)} {resume : Section → Bool} {memory : μ}
  {grammar : Grammar}

/-- Whether a built-in grammar reads documents by walking over their sections with a rule, starting
with some memory. -/
structure Grammar.WalksBy (grammar : Grammar) (rule : Section → WalkM μ (List Node))
    (resume : Section → Bool) (memory : μ) : Prop where
  /-- The name of the grammar selects it. -/
  selects : ∀ source, selectGrammar .builtIn source (some grammar.name) = .ok grammar
  /-- The grammar walks over the sections. -/
  walks : ∀ source, grammar.document source =
    WalkM.run (do return source.root (← walkSections rule resume source.sections)) memory

theorem walksBy_specs :
    Grammar.specs.WalksBy Specs.sectionRule Specs.isHeading false :=
  ⟨fun _ => rfl, fun _ => rfl⟩

theorem walksBy_pseudoKernel :
    Grammar.pseudoKernel.WalksBy Pseudo.sectionRule (fun _ => false) () :=
  ⟨fun _ => rfl, fun _ => rfl⟩

namespace Grammar.WalksBy

/-- The parse of a document is that of the walk over its sections. -/
theorem parseSections_eq (walksBy : grammar.WalksBy rule resume memory) (file : String)
    (nesting : Nesting) (document : Document) :
    parseSections Registry.builtIn ⟨file, nesting, [], []⟩ document (some grammar.name) =
      match walkSections rule resume document.sections
        ⟨⟨file, nesting, [], [.parsing file grammar.name]⟩, memory⟩ with
      | .ok nodes final => ⟨some (document.root nodes), final.session.diagnostics,
          some grammar.name, final.session.events⟩
      | .error failure final =>
        ⟨none, final.session.diagnostics ++ [failure.diagnostic final.session.file],
          some grammar.name, final.session.events⟩ := by
  rw [parseSections_of_selected (walksBy.selects _), walksBy.walks]
  show ParseResult.ofOutcome _ (WalkM.run (EStateM.bind _ _) memory
    ⟨file, nesting, [], [.parsing file grammar.name]⟩) = _
  unfold WalkM.run EStateM.run EStateM.bind
  cases walkSections rule resume document.sections
    ⟨⟨file, nesting, [], [.parsing file grammar.name]⟩, memory⟩ <;> rfl

end Grammar.WalksBy

/-! ## Texts of one section -/

/-- Whether a text is a single section, without a directive. -/
def ReadsSection (file text : String) (part : Section) : Prop :=
  ∃ source, readDocument file text = .ok source ∧ source.directive = none ∧
    source.sections = [part]

/-- A text that is parsed successfully has been cut into sections. -/
theorem exists_readDocument_of_isSuccess {registry : Registry} {text : String} {limit : Int}
    {selected : Option String}
    (succeeds : (parseDocument registry file limit selected text).isSuccess = true) :
    ∃ source, readDocument file text = .ok source := by
  rw [ParseResult.isSuccess, Bool.and_eq_true, Option.isSome_iff_exists] at succeeds
  obtain ⟨⟨tree, yields⟩, _⟩ := succeeds
  obtain ⟨_, source, read, _⟩ := exists_read_of_tree yields
  exact ⟨source, read⟩

/-- A heading with a line of text below it is a single section. -/
theorem exists_readsSection_line (file : String) {title row others : List Char} {level : Nat}
    {first : Char} (isTitle : IsTitle title) (positive : 1 ≤ level) (bounded : level ≤ 6)
    (kept : dropReturn row = row) (clean : isCleanText row = true)
    (starts : row = first :: others) (word : isWordChar first = true) :
    ∃ (heading : Heading) (line : Token),
      ReadsSection file (String.ofList (['\n'].intercalate [headingRow level title, row]))
        ⟨some heading, [.text ⟨line, []⟩], none⟩ ∧
      heading.level = level ∧ heading.title.value = String.ofList title ∧
      line.value = String.ofList (trim row) := by
  have isRow := isRow_headingRow isTitle level
  have titled : RowTokens file 1 [headingRow level title] _ :=
    rowTokens_singleton isRow (ofLine_heading isTitle positive bounded _)
      fun _ => LineShape.noConfusion
  have lined : RowTokens file 2 [row] _ :=
    rowTokens_of_clean kept clean (ofLine_plain starts word _) fun _ => LineShape.noConfusion
  obtain ⟨heading, level', title', opens⟩ := Draft.empty.becomes_heading file 1 level title
  obtain ⟨line, value, adds⟩ := (Draft.empty.openSection heading).becomes_line file 2 row
  refine ⟨heading, line, ?_, level', title', value⟩
  have noFeed : ∀ row' ∈ [headingRow level title, row], '\n' ∉ row' := by
    refine List.forall_mem_cons.mpr ⟨isRow.noFeed, List.forall_mem_singleton.mpr fun member => ?_⟩
    exact absurd ((isCleanText_iff row).mp clean '\n' member) (by decide)
  refine (titled.append lined).exists_readDocument noFeed ?_ (· = [_]) fun last ends =>
    ⟨_, (opens.append adds [last]).trans (Draft.sections_last ends), rfl⟩
  exact List.forall_mem_append.mpr
    ⟨kind_ne_shebang_of_shapeTokens _ _ _ LineShape.noConfusion,
      kind_ne_shebang_of_shapeTokens _ _ _ LineShape.noConfusion⟩

/-- The state in which a grammar starts to read a section. -/
def Grammar.begun (grammar : Grammar) (file : String) (limit : Int) (memory : μ) : WalkState μ :=
  ⟨⟨file, ⟨limit.toNat, 0⟩, [], [.parsing file grammar.name]⟩, memory⟩

namespace Grammar.WalksBy

variable {text : String} {part : Section} {limit : Int} {next : WalkState μ} {nodes : List Node}

/-- A text of one section is parsed by reading the section. -/
theorem parse_of_readsSection (walksBy : grammar.WalksBy rule resume memory) (positive : 1 ≤ limit)
    (reads : ReadsSection file text part) :
    ∃ source : Document, source.directive = none ∧
      parseDocument .builtIn file limit (some grammar.name) text =
        match walkSections rule resume [part] (grammar.begun file limit memory) with
        | .ok nodes final => ⟨some (source.root nodes), final.session.diagnostics,
            some grammar.name, final.session.events⟩
        | .error failure final =>
          ⟨none, final.session.diagnostics ++ [failure.diagnostic final.session.file],
            some grammar.name, final.session.events⟩ := by
  obtain ⟨source, read, undirected, sections⟩ := reads
  refine ⟨source, undirected, ?_⟩
  rw [parseDocument_of_read _ _ positive read, undirected, Option.map_none, Option.none_or,
    walksBy.parseSections_eq, sections]
  rfl

/-- **A text whose section is read** is parsed as the root above the nodes of the section. -/
theorem parse_yields (walksBy : grammar.WalksBy rule resume memory) (positive : 1 ≤ limit)
    (reads : ReadsSection file text part)
    (succeeds : sectionNodes rule part (grammar.begun file limit memory) = .ok nodes next)
    (silent : next.session.diagnostics = []) :
    (parseDocument .builtIn file limit (some grammar.name) text).Yields
      (.plain .sourceFile (nodes.map Node.bare)) := by
  obtain ⟨source, undirected, parsed⟩ := walksBy.parse_of_readsSection positive reads
  rw [parsed, walkSections_of_ok succeeds, walkSections]
  refine ⟨?_, source.root (nodes ++ []), rfl, ?_⟩
  · rw [ParseResult.isSuccess, Bool.and_eq_true]
    exact ⟨rfl, List.isEmpty_iff.mpr silent⟩
  · refine Node.sameAs_of_bare ?_
    rw [Document.root, undirected, List.append_nil, Node.bare_spanning]
    rfl

/-- If a text of one section is parsed successfully, the section is read. -/
theorem exists_of_isSuccess (walksBy : grammar.WalksBy rule resume memory) (positive : 1 ≤ limit)
    (reads : ReadsSection file text part)
    (succeeds : (parseDocument .builtIn file limit (some grammar.name) text).isSuccess = true) :
    ∃ nodes next, sectionNodes rule part (grammar.begun file limit memory) = .ok nodes next := by
  obtain ⟨source, _, parsed⟩ := walksBy.parse_of_readsSection positive reads
  rw [parsed] at succeeds
  cases section' : sectionNodes rule part (grammar.begun file limit memory) with
  | ok nodes next => exact ⟨nodes, next, rfl⟩
  | error failure next =>
    exfalso
    cases recoverable : failure.recoverable? with
    | none =>
      rw [walkSections_of_fatal section' recoverable] at succeeds
      exact Bool.noConfusion succeeds
    | some diagnostic =>
      -- the section is dropped, and the parse goes on with a diagnostic reported
      obtain ⟨⟨name, nesting, diagnostics, events⟩, later⟩ := next
      obtain ⟨events', reports⟩ := exists_reportDropped part diagnostic
        (([] : List Section).takeWhile (part.isBelow resume)).length name nesting diagnostics
        events later
      rw [walkSections_of_dropped section' recoverable reports, List.dropWhile_nil, walkSections,
        ParseResult.isSuccess, Bool.and_eq_true] at succeeds
      have silent : diagnostics ++ [diagnostic] = [] := List.isEmpty_iff.mp succeeds.2
      exact absurd silent (List.append_ne_nil_of_right_ne_nil _ (List.cons_ne_nil _ _))

end Grammar.WalksBy

end DocGrammar
