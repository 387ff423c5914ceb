import Mathlib
import DocGrammar.Proofs.Documents.Single
import DocGrammar.Proofs.Specs.Sections

/-! # A failed section leaves the others alone

Every section of a specs document contributes some nodes and some diagnostics. The tree and the
diagnostics of a parse are those of the sections in document order, and what a known section
contributes depends on nothing but the section and on whether another one was opened before it.

* **`Specs.contribution`** — what a section contributes if it is read on its own.
* **`Specs.Accounts`** — the sections of a document with their contributions, step by step.
* **`Specs.Accounted`** — what a single section contributes, case by case.
* **`Specs.sections_isolated`** — the contributions of the sections make up the whole parse. -/

namespace DocGrammar

namespace Specs

/-! ## Contributions -/

/-- What a section adds to the outcome of a parse. -/
structure Contribution where
  /-- The nodes that it adds to the tree. -/
  nodes : List Node
  /-- The diagnostics that it adds. -/
  diagnostics : List Diagnostic

/-- A section that adds nothing. -/
def Contribution.nothing : Contribution := ⟨[], []⟩

/-- What a section adds that ends in a given way. -/
def Contribution.ofResult : Except Diagnostic (List Node) → Contribution
  | .ok nodes => ⟨nodes, []⟩
  | .error diagnostic => ⟨[], [diagnostic]⟩

/-- A section, read on its own in the state before a parse, has a result. -/
def Results (session : Session) (opened : Bool) (part : Section)
    (result : Except Diagnostic (List Node)) : Prop :=
  ∃ later, sectionNodes sectionRule part ⟨session, opened⟩ =
    WalkM.settled ⟨session, later⟩ result

/-- The contributions of some sections, where `opened` tells whether a section was opened before.
A section is read on its own, or it is an unknown one below a failed section and left out. -/
inductive Accounts (session : Session) : Bool → List Section → List Contribution → Prop
  /-- There are no sections. -/
  | nil {opened : Bool} : Accounts session opened [] []
  /-- A section is read. -/
  | read {opened : Bool} {part : Section} {others : List Section} {more : List Contribution}
      {result : Except Diagnostic (List Node)} (results : Results session opened part result)
      (behind : Accounts session (opened || opens part) others more) :
      Accounts session opened (part :: others) (.ofResult result :: more)
  /-- A section is left out. -/
  | leftOut {opened : Bool} {part : Section} {others : List Section} {more : List Contribution}
      (unknown : isHeading part = false) (behind : Accounts session opened others more) :
      Accounts session opened (part :: others) (.nothing :: more)

/-- Unknown sections may be left out before any others. -/
theorem accounts_append {session : Session} {opened : Bool} {dropped others : List Section}
    {more : List Contribution} (unknown : ∀ part ∈ dropped, isHeading part = false)
    (behind : Accounts session opened others more) :
    Accounts session opened (dropped ++ others)
      (dropped.map (fun _ => Contribution.nothing) ++ more) := by
  induction dropped with
  | nil => exact behind
  | cons part dropped ih =>
    refine .leftOut (unknown part List.mem_cons_self) (ih fun other member => ?_)
    exact unknown other (List.mem_cons_of_mem _ member)

/-- Sections that are left out add nothing. -/
theorem flatMap_nothing {α : Type} (dropped : List Section) {part : Contribution → List α}
    (none : part .nothing = []) :
    (dropped.map fun _ => Contribution.nothing).flatMap part = [] := by
  induction dropped with
  | nil => rfl
  | cons first dropped ih => rw [List.map_cons, List.flatMap_cons, none, ih, List.nil_append]

/-! ## The walk -/

/-- How a walk over sections may end: with a failure that no section is dropped for, or with the
contributions of all sections. -/
def WalkEnds (file : String) (nesting : Nesting) (diagnostics : List Diagnostic) (opened : Bool)
    (parts : List Section) (outcome : EStateM.Result Failure (WalkState Bool) (List Node)) : Prop :=
  (∃ diagnostic final, outcome = .error (.refused diagnostic) final ∧
    diagnostic.kind.isRecoverable = false) ∨
  ∃ contributions events later,
    outcome = .ok (contributions.flatMap Contribution.nodes)
      ⟨⟨file, nesting, diagnostics ++ contributions.flatMap Contribution.diagnostics, events⟩,
        later⟩ ∧
    Accounts ⟨file, nesting, [], []⟩ opened parts contributions

section

variable {file : String} {nesting : Nesting} {diagnostics : List Diagnostic}
  {events : List Event} {opened later : Bool} {part : Section} {others : List Section}

/-- The walk goes on behind a section that succeeds. -/
theorem walkEnds_ok {nodes : List Node}
    (reads : ∀ diagnostics events, sectionNodes sectionRule part
        ⟨⟨file, nesting, diagnostics, events⟩, opened⟩ =
      WalkM.settled ⟨⟨file, nesting, diagnostics, events⟩, opened || opens part⟩ (.ok nodes))
    (behind : ∀ diagnostics events, WalkEnds file nesting diagnostics (opened || opens part) others
      (walkSections sectionRule isHeading others
        ⟨⟨file, nesting, diagnostics, events⟩, opened || opens part⟩)) :
    WalkEnds file nesting diagnostics opened (part :: others)
      (walkSections sectionRule isHeading (part :: others)
        ⟨⟨file, nesting, diagnostics, events⟩, opened⟩) := by
  rw [walkSections_of_ok (reads diagnostics events)]
  rcases behind diagnostics events with ⟨diagnostic, final, outcome, fatal⟩ |
    ⟨contributions, events', later, outcome, accounts⟩
  · rw [outcome]
    exact .inl ⟨diagnostic, final, rfl, fatal⟩
  · rw [outcome]
    exact .inr ⟨.ofResult (.ok nodes) :: contributions, events', later, rfl,
      .read ⟨_, reads [] []⟩ accounts⟩

/-- The walk ends with a section that fails for good. -/
theorem walkEnds_fatal {diagnostic : Diagnostic} {final : WalkState Bool}
    (reads : sectionNodes sectionRule part ⟨⟨file, nesting, diagnostics, events⟩, opened⟩ =
      .error (.refused diagnostic) final)
    (fatal : diagnostic.kind.isRecoverable = false) :
    WalkEnds file nesting diagnostics opened (part :: others)
      (walkSections sectionRule isHeading (part :: others)
        ⟨⟨file, nesting, diagnostics, events⟩, opened⟩) := by
  have ends : (Failure.refused diagnostic).recoverable? = none := by
    simp [Failure.recoverable?, fatal]
  rw [walkSections_of_fatal reads ends]
  exact .inl ⟨diagnostic, final, rfl, fatal⟩

/-- Sections that are left out below a failed one are unknown. -/
theorem unknown_of_isBelow (part : Section) (others : List Section) :
    ∀ other ∈ others.takeWhile (part.isBelow isHeading), isHeading other = false := by
  intro other member
  have below := List.all_eq_true.mp List.all_takeWhile other member
  simp only [Section.isBelow, Bool.and_eq_true] at below
  simpa using below.2

/-- The walk goes on behind a section that fails and the unknown sections below it. -/
theorem walkEnds_dropped {diagnostic : Diagnostic}
    (reads : ∀ diagnostics events, sectionNodes sectionRule part
        ⟨⟨file, nesting, diagnostics, events⟩, opened⟩ =
      WalkM.settled ⟨⟨file, nesting, diagnostics, events⟩, later⟩ (.error diagnostic))
    (recoverable : diagnostic.kind.isRecoverable = true)
    (behind : ∀ diagnostics events, WalkEnds file nesting diagnostics later
      (others.dropWhile (part.isBelow isHeading))
      (walkSections sectionRule isHeading (others.dropWhile (part.isBelow isHeading))
        ⟨⟨file, nesting, diagnostics, events⟩, later⟩))
    (same : others ≠ [] → later = (opened || opens part)) :
    WalkEnds file nesting diagnostics opened (part :: others)
      (walkSections sectionRule isHeading (part :: others)
        ⟨⟨file, nesting, diagnostics, events⟩, opened⟩) := by
  have drops : (Failure.refused diagnostic).recoverable? = some diagnostic := by
    simp [Failure.recoverable?, recoverable]
  obtain ⟨events', reports⟩ := exists_reportDropped part diagnostic
    (others.takeWhile (part.isBelow isHeading)).length file nesting diagnostics events later
  rw [walkSections_of_dropped (reads diagnostics events) drops reports]
  rcases behind (diagnostics ++ [diagnostic]) events' with ⟨diagnostic, final, outcome, fatal⟩ |
    ⟨contributions, events'', last, outcome, accounts⟩
  · exact .inl ⟨diagnostic, final, outcome, fatal⟩
  · refine .inr ⟨.ofResult (.error diagnostic) :: ((others.takeWhile (part.isBelow isHeading)).map
      (fun _ => Contribution.nothing) ++ contributions), events'', last, ?_, ?_⟩
    · rw [outcome, List.flatMap_cons, List.flatMap_cons, List.flatMap_append, List.flatMap_append,
        flatMap_nothing _ rfl, flatMap_nothing _ rfl]
      simp only [Contribution.ofResult, List.nil_append, List.append_assoc, List.cons_append]
    · refine .read ⟨_, reads [] []⟩ ?_
      -- the sections that are dropped below it are unknown and contribute nothing
      by_cases empty : others = []
      · subst empty
        cases accounts
        exact .nil
      · rw [same empty] at accounts
        have whole := accounts_append (unknown_of_isBelow part others) accounts
        rw [List.takeWhile_append_dropWhile] at whole
        exact whole

/-- The walk over the sections of a document ends with an account of all of them, or fails for
good. -/
theorem walkEnds_sections (file : String) (nesting : Nesting) (parts : List Section)
    (faults : FaultsAtEnd parts) (opened : Bool) (diagnostics : List Diagnostic)
    (events : List Event) :
    WalkEnds file nesting diagnostics opened parts
      (walkSections sectionRule isHeading parts
        ⟨⟨file, nesting, diagnostics, events⟩, opened⟩) := by
  induction parts using walk_induction isHeading generalizing opened diagnostics events with
  | nil =>
    rw [walkSections]
    refine .inr ⟨[], events, opened, ?_, .nil⟩
    rw [List.flatMap_nil, List.flatMap_nil, List.append_nil]
    rfl
  | cons part others inOthers inRest =>
    have inside := faults.of_suffix (List.suffix_cons part others)
    have behind := inRest (inside.of_suffix (List.dropWhile_suffix _))
    cases failure : part.failure with
    | some diagnostic =>
      -- only the last section can be at fault
      have last : others = [] := by
        cases others with
        | nil => rfl
        | cons next more =>
          have sound := faults.others part List.mem_cons_self
          rw [failure] at sound
          cases sound
      have fence := faults.fence part List.mem_cons_self diagnostic failure
      have recoverable : diagnostic.kind.isRecoverable = true := by
        rw [Diagnostic.kind, fence]
        rfl
      have reads : ∀ diagnostics events, sectionNodes sectionRule part
            ⟨⟨file, nesting, diagnostics, events⟩, opened⟩ =
          WalkM.settled ⟨⟨file, nesting, diagnostics, events⟩, opened⟩ (.error diagnostic) := by
        intro diagnostics events
        rw [sectionNodes, failure]
        rfl
      exact walkEnds_dropped reads recoverable (behind opened) fun more => absurd last more
    | none =>
      obtain ⟨result, reads⟩ := isolated_sectionNodes failure opened file nesting
      cases result with
      | ok nodes => exact walkEnds_ok reads (inOthers inside (opened || opens part))
      | error diagnostic =>
        cases recoverable : diagnostic.kind.isRecoverable with
        | false => exact walkEnds_fatal (reads diagnostics events) recoverable
        | true => exact walkEnds_dropped reads recoverable (behind _) fun _ => rfl

/-! ## What each section contributes -/

/-- What a section contributes to a parse that started as `session`, where `opened` tells whether
a known section at its own level stands before it. -/
structure Accounted (session : Session) (opened : Bool) (part : Section)
    (contribution : Contribution) : Prop where
  /-- A section of level two contributes what its own body yields at the start of a parse: a node
  or a single diagnostic. -/
  body : ∀ heading kind, part.heading = some heading →
    featureTail? heading.title.value = none → sectionOf? heading.title.value = some kind →
    heading.level = 2 → part.failure = none →
    (∃ node final, (bodySection kind heading part.items).run true session = .ok node final ∧
      contribution = ⟨[node], []⟩) ∨
    (∃ diagnostic final, (bodySection kind heading part.items).run true session =
        .error (.refused diagnostic) final ∧ contribution = ⟨[], [diagnostic]⟩)
  /-- A feature of level one contributes its node if nothing was opened before it and it is valid
  itself, and a single diagnostic otherwise. -/
  feature : ∀ heading tail, part.heading = some heading →
    featureTail? heading.title.value = some tail → heading.level = 1 → part.failure = none →
    (opened = false ∧ ValidFeature tail part.items →
      contribution = ⟨[featureNode heading tail], []⟩) ∧
    (¬(opened = false ∧ ValidFeature tail part.items) →
      ∃ diagnostic, contribution = ⟨[], [diagnostic]⟩)
  /-- A known section at a wrong level, or one that ends in an open fence, contributes a single
  diagnostic about the structure of the document. -/
  misplaced : isHeading part = true → (opens part = false ∨ part.failure.isSome = true) →
    ∃ diagnostic, diagnostic.kind = .structural ∧ contribution = ⟨[], [diagnostic]⟩
  /-- A preamble or an unknown section contributes no node. -/
  unknown : isHeading part = false → contribution.nodes = []

section

variable {session : Session} {result : Except Diagnostic (List Node)}

/-- A section that is left out contributes nothing. -/
theorem accounted_nothing (unknown : isHeading part = false) :
    Accounted session opened part .nothing := by
  have known : ∀ heading, part.heading = some heading →
      (featureTail? heading.title.value).isSome = false ∧
      (sectionOf? heading.title.value).isSome = false := by
    intro heading found
    simpa [isHeading, found] using unknown
  constructor
  · intro heading kind found _ keyword
    have other := (known heading found).2
    rw [keyword] at other
    cases other
  · intro heading tail found mark
    have other := (known heading found).1
    rw [mark] at other
    cases other
  · intro heading
    rw [unknown] at heading
    cases heading
  · intro _
    rfl

/-- The result of a section that is refused is the diagnostic. -/
theorem Results.eq_of_refused {diagnostic : Diagnostic} {final : WalkState Bool}
    (results : Results session opened part result)
    (refused : sectionNodes sectionRule part ⟨session, opened⟩ =
      .error (.refused diagnostic) final) : result = .error diagnostic := by
  obtain ⟨later, ends⟩ := results
  rw [refused] at ends
  cases result with
  | ok nodes => cases ends
  | error other => cases ends; rfl

/-- A section at fault is refused for its own diagnostic. -/
theorem result_of_failure {diagnostic : Diagnostic} (failure : part.failure = some diagnostic)
    (results : Results session opened part result) : result = .error diagnostic := by
  have refused : sectionNodes sectionRule part ⟨session, opened⟩ =
      .error (.refused diagnostic) ⟨session, opened⟩ := by
    rw [sectionNodes, failure]
    rfl
  exact results.eq_of_refused refused

/-- A section of level two ends as its body does. -/
theorem result_of_body {heading : Heading} {kind : SpecSection} {items : List Item}
    (mark : featureTail? heading.title.value = none)
    (keyword : sectionOf? heading.title.value = some kind) (level : heading.level = 2)
    (results : Results session opened ⟨some heading, items, none⟩ result) :
    (∃ node final, (bodySection kind heading items).run true session = .ok node final ∧
      result = .ok [node]) ∨
    (∃ diagnostic final, (bodySection kind heading items).run true session =
      .error (.refused diagnostic) final ∧ result = .error diagnostic) := by
  obtain ⟨later, ends⟩ := results
  rw [sectionNodes_headed rfl rfl, headedSection_body mark keyword level] at ends
  have ends : EStateM.bind (bodySection kind heading items) (fun node => pure [node])
      ⟨session, true⟩ = _ := ends
  unfold EStateM.bind at ends
  unfold WalkM.run EStateM.run
  -- the section adds nothing to its body but the list around the node
  cases outcome : bodySection kind heading items ⟨session, true⟩ with
  | ok node final =>
    rw [outcome] at ends
    cases result with
    | error diagnostic => cases ends
    | ok nodes => cases ends; exact .inl ⟨node, _, rfl, rfl⟩
  | error failure final =>
    rw [outcome] at ends
    cases result with
    | ok nodes => cases ends
    | error diagnostic => cases ends; exact .inr ⟨diagnostic, _, rfl, rfl⟩

/-- A feature ends with its node exactly if it is the first section opened and is valid. -/
theorem result_of_feature {heading : Heading} {tail : List Char} {items : List Item}
    (mark : featureTail? heading.title.value = some tail) (level : heading.level = 1)
    (results : Results session opened ⟨some heading, items, none⟩ result) :
    (opened = false ∧ ValidFeature tail items → result = .ok [featureNode heading tail]) ∧
    (¬(opened = false ∧ ValidFeature tail items) → ∃ diagnostic, result = .error diagnostic) := by
  cases opened with
  | true =>
    -- a feature behind an opened section is refused before it is looked at
    refine ⟨fun valid => absurd valid.1 (by decide), fun _ => ⟨_, results.eq_of_refused
      ((sectionNodes_headed rfl rfl _).trans (headedSection_featureNotFirst mark level _ _))⟩⟩
  | false =>
    obtain ⟨later, ends⟩ := results
    rw [sectionNodes_headed rfl rfl, headedSection_feature mark level] at ends
    have ends : EStateM.bind (feature heading items tail) (fun node => pure [node])
        ⟨session, true⟩ = _ := ends
    unfold EStateM.bind at ends
    constructor
    · rintro ⟨_, valid⟩
      rw [feature_of_valid valid] at ends
      cases result with
      | ok nodes => cases ends; rfl
      | error diagnostic => cases ends
    · intro invalid
      obtain ⟨cause, span, fails⟩ :=
        exists_feature_of_invalid heading (fun valid => invalid ⟨rfl, valid⟩) ⟨session, true⟩
      rw [fails] at ends
      cases result with
      | ok nodes => cases ends
      | error diagnostic => exact ⟨diagnostic, rfl⟩

/-- A known section at a wrong level is refused for that. -/
theorem result_of_misplaced (known : isHeading part = true) (closed : opens part = false)
    (sound : part.failure = none) (results : Results session opened part result) :
    ∃ diagnostic, diagnostic.kind = .structural ∧ result = .error diagnostic := by
  obtain ⟨heading, items, failure⟩ := part
  cases sound
  cases heading with
  | none => cases known
  | some heading =>
    cases mark : featureTail? heading.title.value with
    | some tail =>
      have level : heading.level ≠ 1 := by simpa [opens, mark] using closed
      exact ⟨_, rfl, results.eq_of_refused
        ((sectionNodes_headed rfl rfl _).trans (headedSection_featureLevel mark level _ _))⟩
    | none =>
      cases keyword : sectionOf? heading.title.value with
      | none => simp [isHeading, mark, keyword] at known
      | some kind =>
        have level : heading.level ≠ 2 := by simpa [opens, mark, keyword] using closed
        exact ⟨_, rfl, results.eq_of_refused ((sectionNodes_headed rfl rfl _).trans
          (headedSection_sectionLevel mark keyword level _ _))⟩

/-- A preamble or an unknown section has no nodes. -/
theorem nodes_of_unknown (unknown : isHeading part = false)
    (results : Results session opened part result) :
    (Contribution.ofResult result).nodes = [] := by
  cases result with
  | error diagnostic => rfl
  | ok nodes =>
    obtain ⟨heading, items, failure⟩ := part
    cases failure with
    | some diagnostic =>
      obtain ⟨later, ends⟩ := results
      cases ends
    | none =>
      cases heading with
      | none =>
        obtain ⟨later, ends⟩ := results
        exact nodes_of_preamble ends
      | some heading =>
        simp only [isHeading, Bool.or_eq_false_iff, Option.isSome_eq_false_iff,
          Option.isNone_iff_eq_none] at unknown
        -- an unknown title is refused, so the section has no nodes either
        cases results.eq_of_refused ((sectionNodes_headed rfl rfl _).trans
          (headedSection_unknown unknown.1 unknown.2 _ _))

/-- A section that is read contributes what its result says. -/
theorem accounted_of_results (fence : ∀ diagnostic, part.failure = some diagnostic →
      diagnostic.cause = .unterminatedFence)
    (results : Results session opened part result) :
    Accounted session opened part (.ofResult result) := by
  constructor
  · intro heading kind found mark keyword level sound
    obtain ⟨heading', items, failure⟩ := part
    cases found
    cases sound
    rcases result_of_body mark keyword level results with
      ⟨node, final, ends, rfl⟩ | ⟨diagnostic, final, ends, rfl⟩
    · exact .inl ⟨node, final, ends, rfl⟩
    · exact .inr ⟨diagnostic, final, ends, rfl⟩
  · intro heading tail found mark level sound
    obtain ⟨heading', items, failure⟩ := part
    cases found
    cases sound
    have ends := result_of_feature mark level results
    refine ⟨fun valid => by rw [ends.1 valid]; rfl, fun invalid => ?_⟩
    obtain ⟨diagnostic, rfl⟩ := ends.2 invalid
    exact ⟨diagnostic, rfl⟩
  · intro known wrong
    cases failure : part.failure with
    | some diagnostic =>
      refine ⟨diagnostic, ?_, by rw [result_of_failure failure results]; rfl⟩
      rw [Diagnostic.kind, fence diagnostic failure]
      rfl
    | none =>
      -- a section that carries no failure is at a wrong level
      have closed : opens part = false := by simpa [failure] using wrong
      obtain ⟨diagnostic, structural, rfl⟩ := result_of_misplaced known closed failure results
      exact ⟨diagnostic, structural, rfl⟩
  · intro unknown
    exact nodes_of_unknown unknown results

/-- What the first section contributes and what each of the others does, together. -/
theorem accounted_cons {head : Section} {parts : List Section} {contribution : Contribution}
    {contributions : List Contribution} (here : Accounted session opened head contribution)
    (rest : ∀ index part contribution, parts[index]? = some part →
      contributions[index]? = some contribution →
      Accounted session ((opened || opens head) || (parts.take index).any opens)
        part contribution) :
    ∀ index part found, (head :: parts)[index]? = some part →
      (contribution :: contributions)[index]? = some found →
      Accounted session (opened || ((head :: parts).take index).any opens) part found := by
  intro index part found inParts inContributions
  cases index with
  | zero =>
    cases inParts
    cases inContributions
    rw [List.take_zero, List.any_nil, Bool.or_false]
    exact here
  | succ index =>
    rw [List.take_succ_cons, List.any_cons, ← Bool.or_assoc]
    exact rest index part found inParts inContributions

/-- In an account of some sections every section has its contribution. -/
theorem Accounts.accounted {parts : List Section} {contributions : List Contribution}
    (accounts : Accounts session opened parts contributions)
    (fence : ∀ part ∈ parts, ∀ diagnostic, part.failure = some diagnostic →
      diagnostic.cause = .unterminatedFence) :
    contributions.length = parts.length ∧
      ∀ index part contribution, parts[index]? = some part →
        contributions[index]? = some contribution →
        Accounted session (opened || (parts.take index).any opens) part contribution := by
  induction accounts with
  | nil =>
    refine ⟨rfl, fun index part contribution found => ?_⟩
    cases found
  | @read opened head others more result results behind ih =>
    obtain ⟨length, rest⟩ := ih fun part member => fence part (List.mem_cons_of_mem _ member)
    exact ⟨congrArg Nat.succ length,
      accounted_cons (accounted_of_results (fence _ List.mem_cons_self) results) rest⟩
  | @leftOut opened head others more unknown behind ih =>
    obtain ⟨length, rest⟩ := ih fun part member => fence part (List.mem_cons_of_mem _ member)
    -- a section that is left out is unknown, so it opens nothing for those behind it
    have closed : opens head = false := by
      cases opened : opens head with
      | false => rfl
      | true =>
        rw [isHeading_of_opens opened] at unknown
        cases unknown
    refine ⟨congrArg Nat.succ length, accounted_cons (accounted_nothing unknown) ?_⟩
    rw [closed, Bool.or_false]
    exact rest

end

end

/-! ## Whole parses -/

/-- Whatever comes of a document, its parse names the selected grammar. -/
theorem grammar_parseSections (registry : Registry) (session : Session) (document : Document)
    (selected : Option String) :
    (parseSections registry session document selected).grammar = selected := by
  unfold parseSections
  split
  · rfl
  · unfold ParseResult.ofOutcome
    split <;> rfl

/-- A section of a text is at fault only if it is the last one and its last fence is open. -/
theorem faultsAtEnd_of_readDocument {file text : String} {document : Document}
    (read : readDocument file text = .ok document) : FaultsAtEnd document.sections := by
  obtain ⟨tokens, _, cuts⟩ := exists_tokens_of_readDocument read
  exact Document.faultsAtEnd_of_ofTokens cuts

theorem lexical_or_selection {kind : FailureKind} (fatal : kind.isRecoverable = false) :
    kind = .lexical ∨ kind = .selection := by
  cases kind with
  | lexical => exact .inl rfl
  | selection => exact .inr rfl
  | _ => cases fatal

/-- A parse with the specs grammar that ends without an error in the tokens or in the choice of the
grammar yields, section by section and in document order, what each of them contributes. -/
theorem sections_isolated (file : String) (limit : Int) (defaultGrammar : Option String)
    (text : String) :
    let parse := parseDocument Registry.builtIn file limit defaultGrammar text
    parse.grammar = some Grammar.specs.name →
    (∀ diagnostic ∈ parse.diagnostics,
      diagnostic.kind ≠ .lexical ∧ diagnostic.kind ≠ .selection) →
    ∃ (document : Document) (session : Session) (contributions : List Contribution),
      readDocument file text = .ok document ∧ Session.start file limit = .ok session ∧
      parse.tree = some (document.root (contributions.flatMap Contribution.nodes)) ∧
      parse.diagnostics = contributions.flatMap Contribution.diagnostics ∧
      contributions.length = document.sections.length ∧
      ∀ index part contribution, document.sections[index]? = some part →
        contributions[index]? = some contribution →
        Accounted session ((document.sections.take index).any opens) part contribution := by
  intro parse selected finished
  obtain ⟨positive, document, read, parsed⟩ : 1 ≤ limit ∧ ∃ document,
      readDocument file text = .ok document ∧
      parse = parseSections Registry.builtIn ⟨file, ⟨limit.toNat, 0⟩, [], []⟩ document
        ((document.directive.map Directive.grammar).or defaultGrammar) := by
    -- a parse that is refused before sections are read names no grammar
    rcases parseDocument_cases Registry.builtIn defaultGrammar file limit text with
      ⟨_, refused⟩ | ⟨_, _, _, refused⟩ | read
    · cases (congrArg ParseResult.grammar refused).symm.trans selected
    · cases (congrArg ParseResult.grammar refused).symm.trans selected
    · exact read
  have named : (document.directive.map Directive.grammar).or defaultGrammar =
      some Grammar.specs.name := by
    rw [← selected, parsed, grammar_parseSections]
  rw [named, walksBy_specs.parseSections_eq] at parsed
  have faults := faultsAtEnd_of_readDocument read
  have walked := walkEnds_sections file ⟨limit.toNat, 0⟩ document.sections faults false []
    [.parsing file Grammar.specs.name]
  rcases walked with ⟨diagnostic, final, outcome, fatal⟩ |
    ⟨contributions, events, later, outcome, accounts⟩
  · rw [outcome] at parsed
    have last := finished diagnostic (by rw [parsed]; simp [Failure.diagnostic])
    rcases lexical_or_selection fatal with kind | kind
    · exact absurd kind last.1
    · exact absurd kind last.2
  · rw [outcome] at parsed
    obtain ⟨length, each⟩ := accounts.accounted faults.fence
    refine ⟨document, _, contributions, read, Session.start_of_positive file positive,
      by rw [parsed], by rw [parsed]; rfl, length, ?_⟩
    intro index part contribution found contributed
    have accounted := each index part contribution found contributed
    rw [Bool.false_or] at accounted
    exact accounted

/-- A feature with an unknown section behind it, which contributes a diagnostic and no node. -/
theorem sections_isolated_unknown :
    (parseDocument Registry.builtIn "t" 3 (some "specs") "# Feature: a\n## Odd").grammar =
        some Grammar.specs.name ∧
      (parseDocument Registry.builtIn "t" 3 (some "specs") "# Feature: a\n## Odd").diagnostics.map
        Diagnostic.kind = [.structural] ∧
      ∃ (document : Document) (contributions : List Contribution),
        readDocument "t" "# Feature: a\n## Odd" = .ok document ∧
        (parseDocument Registry.builtIn "t" 3 (some "specs") "# Feature: a\n## Odd").tree =
          some (document.root (contributions.flatMap Contribution.nodes)) := by
  have selected : (parseDocument Registry.builtIn "t" 3 (some "specs")
      "# Feature: a\n## Odd").grammar = some Grammar.specs.name := by cbv
  have kinds : (parseDocument Registry.builtIn "t" 3 (some "specs")
      "# Feature: a\n## Odd").diagnostics.map Diagnostic.kind = [.structural] := by cbv
  have finished : ∀ diagnostic ∈ (parseDocument Registry.builtIn "t" 3 (some "specs")
      "# Feature: a\n## Odd").diagnostics,
      diagnostic.kind ≠ .lexical ∧ diagnostic.kind ≠ .selection := by
    intro diagnostic member
    have kind : diagnostic.kind ∈ [FailureKind.structural] := by
      rw [← kinds]
      exact List.mem_map_of_mem member
    rw [List.mem_singleton.mp kind]
    decide
  obtain ⟨document, _, contributions, read, _, tree, _⟩ :=
    sections_isolated "t" 3 (some "specs") "# Feature: a\n## Odd" selected finished
  exact ⟨selected, kinds, document, contributions, read, tree⟩

end Specs

end DocGrammar
