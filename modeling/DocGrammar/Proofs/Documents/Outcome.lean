import DocGrammar.Proofs.Documents.Roots
import DocGrammar.Proofs.Pseudo.Sections
import DocGrammar.Proofs.Specs.Isolation
import DocGrammar.Proofs.Specs.Placed

/-! # How the parse of a text ends

A parse with a positive limit ends in one of two ways. Either an error in the tokens or in the
choice of the grammar ends it, which is then its last diagnostic, or it yields a tree, and every
diagnostic is one that a section was dropped for.

* **`ParseResult.Ends`** — the two ways in which a parse ends.
* **`ends_parseDocument`** — every parse with a positive limit ends like this.
* **`parseDocument_outcome`** — what a caller sees of it.
* **`tree_conforms`**, **`tree_spaced`** — what a caller knows of a tree. -/

namespace DocGrammar

variable {document : List Char} {dialect : Dialect} {source : Document} {nodes : List Node}
  {diagnostics : List Diagnostic}

/-! ## Nodes below a root -/

/-- The grammar of a dialect. -/
def Dialect.grammar : Dialect → Grammar
  | .specs => .specs
  | .pseudo => .pseudoKernel

/-- Some nodes may stand below the root of a document, and wherever the sections stand along a text,
the nodes do, too. -/
structure Dialect.Yields (dialect : Dialect) (source : Document) (nodes : List Node) : Prop where
  /-- They may stand below the root. -/
  holds : dialect.HoldsBody nodes
  /-- They stand where the sections do. -/
  along : ∀ {document chars start}, Along (Section.StandsOn document) start chars source.sections →
    Segment document start chars → Along (Node.StandsOn document) start chars nodes

namespace Specs

theorem isolated_sectionRule {part : Section} (sound : part.failure = none) (opened : Bool) :
    (sectionRule part).Isolated opened (opened || opens part) := by
  have isolated := isolated_sectionNodes sound opened
  unfold sectionNodes at isolated
  rwa [sound] at isolated

/-- A walk over the sections of a specs document yields a feature, if there is one, before the
other sections. -/
theorem yields_of_walked
    (walked : Walked sectionRule (fun opened part => opened || opens part) false source.sections
      nodes diagnostics) : Dialect.specs.Yields source nodes := by
  refine ⟨?_, fun along segment => walked.along along segment fun sound stands _ reads =>
    along_of_sectionRead (sectionRead_of_sectionRule reads) sound stands⟩
  obtain ⟨feature, bodies, rfl, first, parts⟩ := exists_of_walked walked
  have bodySlot : Slot.admitsFirst (.optional [.featureSection]) bodies = false :=
    Node.admitsFirst_of_isPart parts (by decide)
  refine ⟨?_, fun node member => ?_, ?_⟩
  · exact Slot.fill_toList rfl (fun node member => (first node member).2.admits) bodySlot
      (Slot.fill_any rfl fun node member => (parts node member).admits)
  · rcases List.mem_append.mp member with isFeature | below
    · exact (first node (Option.mem_toList.mp isFeature)).2.conforms
    · exact (parts node below).conforms
  · -- neither a feature nor the section of a body can stand for the directive
    have all : ∀ node ∈ feature.toList ++ bodies,
        node.IsPart .specs (.featureSection :: NodeKind.bodySections) := by
      intro node member
      rcases List.mem_append.mp member with isFeature | below
      · exact (first node (Option.mem_toList.mp isFeature)).2.mono (by decide)
      · exact (parts node below).mono (by decide)
    exact Node.admitsFirst_of_isPart all (by decide)

end Specs

namespace Pseudo

/-- A walk over the sections of a pseudo-kernel document yields parts of a document. -/
theorem yields_of_walked
    (walked : Walked sectionRule (fun _ _ => ()) () source.sections nodes diagnostics) :
    Dialect.pseudo.Yields source nodes := by
  have parts : ∀ node ∈ nodes, node.IsPart .pseudo NodeKind.documentParts :=
    walked.forall_mem isPart_of_sectionRule
  refine ⟨⟨?_, fun node member => (parts node member).conforms, ?_⟩, fun along segment =>
    walked.along along segment fun sound stands inside reads =>
      along_of_sectionRule sound stands inside reads⟩
  · exact Slot.fill_any rfl fun node member => (parts node member).admits
  · exact Node.admitsFirst_of_isPart parts (by decide)

end Pseudo

/-! ## How parses end -/

/-- How the parse of a text may end. -/
inductive ParseResult.Ends (document : List Char) (result : ParseResult) : Prop
  /-- An error ends it for which no section is dropped. It is the last diagnostic, and there is no
  tree. -/
  | fatal {reported : List Diagnostic} {last : Diagnostic} (tree : result.tree = none)
      (diagnostics : result.diagnostics = reported ++ [last])
      (recoverable : ∀ diagnostic ∈ reported, diagnostic.kind.isRecoverable = true)
      (fatal : last.kind.isRecoverable = false) : Ends document result
  /-- It yields a tree, and sections are dropped for all diagnostics. -/
  | finished {source : Document} {nodes : List Node} {dialect : Dialect}
      (tree : result.tree = some (source.root nodes))
      (grammar : result.grammar = some dialect.grammar.name)
      (recoverable : ∀ diagnostic ∈ result.diagnostics, diagnostic.kind.isRecoverable = true)
      (stands : source.StandsOn document) (yields : dialect.Yields source nodes) :
      Ends document result

theorem ParseResult.ends_refused {diagnostic : Diagnostic} {grammar : Option String}
    (fatal : diagnostic.kind.isRecoverable = false) :
    Ends document { refused diagnostic with grammar := grammar } :=
  .fatal rfl (List.nil_append [diagnostic]).symm
    (List.forall_mem_nil _) fatal

/-- A parse ends like this if the walk over the sections yields nodes of a dialect. -/
theorem ends_of_walk {μ : Type} {rule : Section → WalkM μ (List Node)} {after : μ → Section → μ}
    (resume : Section → Bool) (file : String) (nesting : Nesting) (events : List Event) (memory : μ)
    (isolated : ∀ part, part.failure = none → ∀ memory,
      (rule part).Isolated memory (after memory part))
    (faults : ∀ part ∈ source.sections, ∀ diagnostic, part.failure = some diagnostic →
      diagnostic.kind.isRecoverable = true)
    (stands : source.StandsOn document)
    (yields : ∀ {nodes diagnostics}, Walked rule after memory source.sections nodes diagnostics →
      dialect.Yields source nodes) :
    (ParseResult.ofOutcome (some dialect.grammar.name)
      (WalkM.run (do return source.root (← walkSections rule resume source.sections)) memory
        ⟨file, nesting, [], events⟩)).Ends document := by
  have walks : WalkOutcome rule after file nesting [] memory source.sections
      (walkSections rule resume source.sections ⟨⟨file, nesting, [], events⟩, memory⟩) :=
    walkOutcome_walkSections isolated file nesting source.sections faults memory [] events
  obtain ⟨reported, events', later, recoverable, ending⟩ := walks
  rw [WalkM.run_map]
  rcases ending with ⟨diagnostic, fatal, outcome⟩ | ⟨nodes, walked, outcome⟩
  · rw [outcome]
    exact .fatal rfl rfl recoverable fatal
  · rw [outcome]
    exact .finished rfl rfl recoverable stands (yields walked)

/-! ## Parses of texts -/

variable {file : String}

/-- A name selects the grammar of a dialect, or there is an error. -/
theorem selectGrammar_builtIn (source : Document) (selected : Option String) :
    (∃ dialect : Dialect, selected = some dialect.grammar.name ∧
      selectGrammar .builtIn source selected = .ok dialect.grammar) ∨
    ∃ diagnostic, selectGrammar .builtIn source selected = .error diagnostic ∧
      diagnostic.kind = .selection := by
  cases selected with
  | none => exact .inr ⟨⟨.noGrammar, Span.fileStart source.file⟩, rfl, rfl⟩
  | some name =>
    by_cases specs : Grammar.specs.name = name
    · exact .inl ⟨.specs, congrArg some specs.symm, specs ▸ rfl⟩
    by_cases pseudo : Grammar.pseudoKernel.name = name
    · exact .inl ⟨.pseudo, congrArg some pseudo.symm, pseudo ▸ rfl⟩
    have unknown : Registry.builtIn.find? name = none := by
      refine List.find?_eq_none.mpr fun grammar member => ?_
      rcases List.mem_cons.mp member with rfl | last
      · simpa using specs
      · rw [List.mem_singleton.mp last]
        simpa using pseudo
    exact .inr ⟨_, selectGrammar_of_unknown unknown, rfl⟩

/-- The parse of the sections of a document ends with a tree or with an error. -/
theorem ends_parseSections (nesting : Nesting) (selected : Option String)
    (faults : ∀ part ∈ source.sections, ∀ diagnostic, part.failure = some diagnostic →
      diagnostic.kind.isRecoverable = true)
    (stands : source.StandsOn document) :
    (parseSections .builtIn ⟨file, nesting, [], []⟩ source selected).Ends document := by
  rcases selectGrammar_builtIn source selected with ⟨dialect, rfl, selects⟩ | ⟨diagnostic, refuses,
    kind⟩
  · rw [parseSections_of_selected selects]
    cases dialect with
    | specs =>
      exact ends_of_walk Specs.isHeading file nesting _ false
        (fun _ sound => Specs.isolated_sectionRule sound) faults stands Specs.yields_of_walked
    | pseudo =>
      exact ends_of_walk (fun _ => false) file nesting _ ()
        (fun part _ _ => Pseudo.isolated_sectionRule part) faults stands Pseudo.yields_of_walked
  · rw [parseSections_of_unselected refuses]
    exact ParseResult.ends_refused (by rw [kind]; rfl)

/-- A text becomes no tokens only for a character. -/
theorem kind_of_documentTokens {text : String} {diagnostic : Diagnostic}
    (refused : documentTokens file text = .error diagnostic) : diagnostic.kind = .lexical := by
  obtain ⟨_, _, _, forbidden⟩ := exists_of_documentTokens_error refused
  obtain ⟨_, _, rfl⟩ := exists_of_forbiddenCharacter? forbidden
  rfl

/-- A text is read as a document that stands on it, or there is an error in its tokens or in its
directive. -/
theorem readDocument_outcome (file text : String) :
    (∃ source, readDocument file text = .ok source ∧
      source.StandsOn (documentText text.toList)) ∨
    ∃ diagnostic, readDocument file text = .error diagnostic ∧
      diagnostic.kind.isRecoverable = false := by
  cases lexed : documentTokens file text with
  | error diagnostic =>
    refine .inr ⟨diagnostic, readDocument_of_lexical lexed, ?_⟩
    rw [kind_of_documentTokens lexed]
    rfl
  | ok tokens =>
    have reads := readDocument_of_documentTokens lexed
    rcases Document.ofTokens_documentTokens lexed with ⟨source, cuts, _, stands⟩ |
      ⟨diagnostic, refused, kind⟩
    · exact .inl ⟨source, reads.trans cuts, stands⟩
    · exact .inr ⟨diagnostic, reads.trans refused, by rw [kind]; rfl⟩

/-- Every parse with a positive limit ends with a tree or with an error. -/
theorem ends_parseDocument (file : String) {limit : Int} (positive : 1 ≤ limit)
    (defaultGrammar : Option String) (text : String) :
    (parseDocument .builtIn file limit defaultGrammar text).Ends (documentText text.toList) := by
  rcases readDocument_outcome file text with ⟨source, reads, stands⟩ | ⟨diagnostic, refused, fatal⟩
  · rw [parseDocument_of_read _ _ positive reads]
    refine ends_parseSections _ _ (fun part member diagnostic failure => ?_) stands
    -- the only fault that a section can have is a fence that nothing closes
    have fence := (Specs.faultsAtEnd_of_readDocument reads).fence part member diagnostic failure
    rw [Diagnostic.kind, fence]
    rfl
  · rw [parseDocument_of_refused _ _ positive refused]
    exact ParseResult.ends_refused fatal

/-! ## What callers see -/

/-- The classes of the failures that sections are dropped for. -/
def FailureKind.ofSections : List FailureKind := [.structural, .syntactic, .typing, .depth]

theorem FailureKind.mem_ofSections {kind : FailureKind} (recoverable : kind.isRecoverable = true) :
    kind ∈ ofSections := by
  cases kind with
  | lexical | selection => cases recoverable
  | _ => decide

/-- A parse with a positive limit either yields a tree, and all its diagnostics are those of
sections, or ends with an error in the tokens or in the choice of the grammar, its only one and its
last diagnostic. It succeeds if there are no diagnostics. Nothing else ends it: the tokens of a text
are never refused for their order, and what is looked up in a line stands there. -/
theorem parseDocument_outcome (file : String) (limit : Int) (positive : 1 ≤ limit)
    (defaultGrammar : Option String) (text : String) :
    let parse := parseDocument .builtIn file limit defaultGrammar text
    ((∃ reported last, parse.tree = none ∧ parse.diagnostics = reported ++ [last] ∧
        (last.kind = .lexical ∨ last.kind = .selection) ∧
        ∀ diagnostic ∈ reported, diagnostic.kind ∈ FailureKind.ofSections) ∨
      ∃ tree, parse.tree = some tree ∧ tree.kind = .sourceFile ∧
        ∀ diagnostic ∈ parse.diagnostics, diagnostic.kind ∈ FailureKind.ofSections) ∧
    (parse.isSuccess = true ↔ parse.diagnostics = []) ∧
    (∀ tokens diagnostic, documentTokens file text = .ok tokens →
      Document.ofTokens file tokens = .error diagnostic → diagnostic.kind = .selection) ∧
    (∀ pieces : LinkPieces, (offsetOf? pieces.description pieces.tail).isSome = true) ∧
    (∀ title tail, Specs.featureTail? title = some tail →
      (offsetOf? (trim tail) (title.toList.drop Specs.featureMark.length)).isSome = true) ∧
    (∀ line name, grammarNameOf? line = some name →
      (offsetOf? name.toList line).isSome = true) := by
  intro parse
  have ends : parse.Ends (documentText text.toList) :=
    ends_parseDocument file positive defaultGrammar text
  have found : ∀ {piece line : List Char}, piece <:+: line →
      (offsetOf? piece line).isSome = true := by
    intro piece line isInfix
    obtain ⟨before, _, _, offset⟩ := exists_offsetOf? isInfix
    rw [offset]
    rfl
  refine ⟨?_, ?_, fun tokens diagnostic lexed refused => ?_,
    fun pieces => found pieces.description_isInfix, fun title tail titled => ?_,
    fun line name names => found (isInfix_of_grammarNameOf? names).1⟩
  · -- a parse ends for good or yields a tree; both say what is reported
    cases ends with
    | fatal tree diagnostics recoverable fatal =>
      exact .inl ⟨_, _, tree, diagnostics, Specs.lexical_or_selection fatal,
        fun diagnostic member => FailureKind.mem_ofSections (recoverable diagnostic member)⟩
    | finished tree grammar recoverable =>
      exact .inr ⟨_, tree, rfl,
        fun diagnostic member => FailureKind.mem_ofSections (recoverable diagnostic member)⟩
  · cases ends with
    | fatal tree diagnostics =>
      simp [ParseResult.isSuccess, tree, diagnostics]
    | finished tree => simp [ParseResult.isSuccess, tree]
  · -- of the tokens of a text only the directive is refused
    rcases Document.ofTokens_documentTokens lexed with ⟨_, cuts, _⟩ | ⟨_, refused', kind⟩
    · cases cuts.symm.trans refused
    · cases refused'.symm.trans refused
      exact kind
  · rw [Specs.eq_of_featureTail? titled]
    have cut : (Specs.featureMark.toList ++ tail).drop Specs.featureMark.length = tail :=
      List.drop_left
    rw [cut]
    exact found (trim_isInfix tail)

/-- A text without a grammar, which is the only thing wrong with it. -/
theorem parseDocument_outcome_unnamed : (1 : Int) ≤ 3 ∧ ∃ reported last,
    (parseDocument .builtIn "t" 3 none "a").diagnostics = reported ++ [last] ∧
      (last.kind = .lexical ∨ last.kind = .selection) := by
  have positive : (1 : Int) ≤ 3 := by decide
  have refused : (parseDocument .builtIn "t" 3 none "a").tree = none := by cbv
  refine ⟨positive, ?_⟩
  rcases (parseDocument_outcome "t" 3 positive none "a").1 with
    ⟨reported, last, _, split, kind, _⟩ | ⟨tree, yields, _⟩
  · exact ⟨reported, last, split, kind⟩
  · rw [refused] at yields
    cases yields

/-- A parse that yields a tree has read a document. -/
theorem exists_of_tree {limit : Int} {defaultGrammar : Option String} {text : String} {tree : Node}
    (yields : (parseDocument .builtIn file limit defaultGrammar text).tree = some tree) :
    ∃ (source : Document) (nodes : List Node) (dialect : Dialect), tree = source.root nodes ∧
      (parseDocument .builtIn file limit defaultGrammar text).grammar = some dialect.grammar.name ∧
      source.StandsOn (documentText text.toList) ∧ dialect.Yields source nodes := by
  have positive := (exists_read_of_tree yields).1
  cases ends_parseDocument file positive defaultGrammar text with
  | fatal tree =>
    rw [tree] at yields
    cases yields
  | finished tree grammar _ stands holds =>
    rw [tree] at yields
    cases yields
    exact ⟨_, _, _, rfl, grammar, stands, holds⟩

/-- Every tree that a parse yields conforms to the schema of the grammar that the parse names. -/
theorem tree_conforms (file : String) (limit : Int) (defaultGrammar : Option String) (text : String)
    (tree : Node)
    (yields : (parseDocument .builtIn file limit defaultGrammar text).tree = some tree) :
    ∃ dialect : Dialect,
      (parseDocument .builtIn file limit defaultGrammar text).grammar =
        some dialect.grammar.name ∧
      tree.kind = .sourceFile ∧ tree.conforms dialect = true := by
  obtain ⟨source, nodes, dialect, rfl, grammar, _, holds⟩ := exists_of_tree yields
  exact ⟨dialect, grammar, rfl, source.conforms_root holds.holds⟩

/-- A heading and a link with a description. -/
theorem tree_conforms_link : ∃ tree,
    (parseDocument .builtIn "p" 8 (some "pseudo-kernel") "# a\n- [b] c").tree =
      some tree ∧ ∃ dialect : Dialect, tree.conforms dialect = true := by
  have found : (parseDocument .builtIn "p" 8 (some "pseudo-kernel")
      "# a\n- [b] c").tree.isSome = true := by cbv
  obtain ⟨tree, yields⟩ := Option.isSome_iff_exists.mp found
  obtain ⟨dialect, _, _, conforms⟩ := tree_conforms _ _ _ _ tree yields
  exact ⟨tree, yields, dialect, conforms⟩

/-- In every tree that a parse yields, every node has a span that holds those of its children, and
these lie one behind the other. -/
theorem tree_spaced (file : String) (limit : Int) (defaultGrammar : Option String) (text : String)
    (tree : Node)
    (yields : (parseDocument .builtIn file limit defaultGrammar text).tree = some tree) :
    ∀ node ∈ tree.walk, node.Spaced := by
  obtain ⟨source, nodes, dialect, rfl, _, stands, holds⟩ := exists_of_tree yields
  exact fun node member => (stands.sound_root holds.along node member).1

/-- A feature with a section that has no lines. -/
theorem tree_spaced_feature : ∃ tree,
    (parseDocument .builtIn "s" 8 (some "specs") "# Feature: a\n## Inputs").tree =
      some tree ∧ ∀ node ∈ tree.walk, node.Spaced := by
  have found : (parseDocument .builtIn "s" 8 (some "specs")
      "# Feature: a\n## Inputs").tree.isSome = true := by cbv
  obtain ⟨tree, yields⟩ := Option.isSome_iff_exists.mp found
  exact ⟨tree, yields, tree_spaced _ _ _ _ tree yields⟩

end DocGrammar
