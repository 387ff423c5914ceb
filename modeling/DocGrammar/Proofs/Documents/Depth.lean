import DocGrammar.Proofs.Documents.Outcome
import DocGrammar.Proofs.Pseudo.Limits
import DocGrammar.Proofs.Specs.Contract
import DocGrammar.Proofs.Specs.Limits
import DocGrammar.Proofs.Types.Text

/-! # What the limit of nesting does to a parse

The limit does nothing but refuse: a parse that reports no nesting beyond its limit is the same
under every greater limit. It bounds the tree up to the nodes that repetitions make around what was
read before, and nothing bounds those.

* **`ParseResult.Limited`** — what a limit does to a result.
* **`limited_parseType`**, **`limited_parseDocument`** — what it does to types and documents.
* **`parse_eq_of_not_depth`** — a greater limit changes nothing.
* **`nestedHeight_le_of_parsed`**, **`height_unbounded`** — the height of trees. -/

namespace DocGrammar

variable {limits : Limits} {file : String}

/-! ## Results under two limits -/

/-- What is known of a result and of the one under a greater limit: if no diagnostic is one of too
deep nesting, the two are the same, and a tree of the former is within a bound. -/
structure ParseResult.Limited (bound : Nat) (result greater : ParseResult) : Prop where
  /-- The limit only refuses. -/
  steady : (∃ diagnostic ∈ result.diagnostics, diagnostic.kind = .depth) ∨ greater = result
  /-- The limit bounds the tree. -/
  bounded : ∀ tree, result.tree = some tree → tree.Within bound

theorem ParseResult.Limited.mono {bound more : Nat} {result greater : ParseResult}
    (limited : Limited bound result greater) (le : bound ≤ more) : Limited more result greater :=
  ⟨limited.steady, fun tree yields => (limited.bounded tree yields).mono le⟩

/-- A result without a tree that does not depend on the limit. -/
theorem ParseResult.limited_refused (bound : Nat) (diagnostic : Diagnostic)
    (grammar : Option String) :
    Limited bound { refused diagnostic with grammar := grammar }
      { refused diagnostic with grammar := grammar } :=
  ⟨.inr rfl, nofun⟩

/-- A walk that does the same under both limits, started on its own. -/
theorem WalkM.Tracks.limited {walk : WalkM Unit Node} {bound : Nat} {blames : Diagnostic → Prop}
    (tracks : walk.Tracks limits file (Node.Within bound) blames) (grammar : Option String) :
    ParseResult.Limited bound (.ofOutcome grammar (walk.run () ⟨file, ⟨limits.low, 0⟩, [], []⟩))
      (.ofOutcome grammar (walk.run () ⟨file, ⟨limits.high, 0⟩, [], []⟩)) := by
  have ensured := tracks ⟨⟨file, ⟨limits.low, 0⟩, [], []⟩, ()⟩ ⟨rfl, rfl⟩
  have raised : (⟨⟨file, ⟨limits.low, 0⟩, [], []⟩, ()⟩ : WalkState Unit).under limits.high =
      ⟨⟨file, ⟨limits.high, 0⟩, [], []⟩, ()⟩ := rfl
  rw [raised] at ensured
  rw [run_eq, run_eq]
  cases outcome : walk ⟨⟨file, ⟨limits.low, 0⟩, [], []⟩, ()⟩ with
  | ok tree final =>
    rw [outcome] at ensured
    obtain ⟨_, within, same⟩ := ensured
    rw [same]
    refine ⟨.inr rfl, fun other yields => ?_⟩
    cases yields
    exact within
  | error failure final =>
    rw [outcome] at ensured
    obtain ⟨kept, diagnostic, rfl, _, behaves⟩ := ensured
    -- a failure is too deep a level, or the walk under the other limit fails alike
    refine ⟨behaves.imp (fun depth => ?_) fun same => ?_, fun tree yields => ?_⟩
    · exact ⟨diagnostic, by simp [ParseResult.ofOutcome, Failure.diagnostic], depth⟩
    · rw [same]
      rfl
    · cases yields

/-! ## Types -/

theorem TypeExpr.takes_complete : TypeExpr.complete.Takes fun _ => 0 := by
  refine Rule.takes_skipNewlines.then fun _ => TypeExpr.takes_rule.then fun result => ?_
  refine Rule.takes_skipNewlines.then fun _ => Rule.takes_current fun rest => ?_
  refine Rule.TakesFrom.ite (fun _ => (Rule.takes_refuse_bind ?_ _ _).from rest)
    fun _ => (Rule.takes_pure rfl).from rest
  exact rfl

/-- What a limit does to a type. -/
theorem limited_parseType (file text : String) {low high : Int} (positive : 1 ≤ low)
    (ordered : low ≤ high) :
    (parseType file low text).Limited (4 * low.toNat + 1) (parseType file high text) := by
  have positive' : 1 ≤ high := Int.le_trans positive ordered
  cases lexed : codeTokens .none file Position.origin text with
  | error diagnostic =>
    rw [parseType_of_lexical positive lexed, parseType_of_lexical positive' lexed]
    exact ParseResult.limited_refused _ diagnostic none
  | ok tokens =>
    rw [parseType_of_tokens positive lexed, parseType_of_tokens positive' lexed]
    have ends : EndsInput (WalkM.seen tokens) := (codeRead_of_codeTokensFrom rfl lexed).endsInput
    let limits : Limits := ⟨low.toNat, high.toNat, by omega⟩
    have tracks : (WalkM.runRule TypeExpr.complete tokens : WalkM Unit Node).Tracks limits file
        (Node.Within (4 * low.toNat + 1)) _ :=
      WalkM.tracks_runRule TypeExpr.steady_complete TypeExpr.takes_complete ends
    exact tracks.limited none

/-! ## Documents -/

/-- What a section of a dialect may be blamed for. -/
def Dialect.Blames : Dialect → String → Section → Diagnostic → Prop
  | .specs => Specs.Blames
  | .pseudo => Pseudo.Blames

/-- The root of a document is one level higher than the nodes below it. -/
theorem Document.within_root (source : Document) {bound : Nat} {nodes : List Node}
    (low : Rule.All (Node.Within (bound + 2)) nodes) :
    (source.root nodes).Within (bound + 3) := by
  refine Node.within_of_children (List.forall_mem_append.mpr ⟨?_, low⟩)
  cases source.directive with
  | none => exact List.forall_mem_nil _
  | some directive =>
    refine List.forall_mem_singleton.mpr (Node.within_of_children ?_)
    exact List.forall_mem_singleton.mpr (Node.within_leafOf _ _ _)

/-- A walk over the sections of a document whose sections do the same under both limits yields a
limited result. Its diagnostics are to be blamed on sections in turn. -/
theorem limited_of_walk {μ : Type} {rule : Section → WalkM μ (List Node)} {bound : Nat}
    {blames : Section → Diagnostic → Prop} (source : Document) (resume : Section → Bool)
    (grammar : Option String) (events : List Event) (memory : μ)
    (each : ∀ part, (sectionNodes rule part).Tracks limits file
      (Rule.All (Node.Within (bound + 2))) (blames part)) :
    let result (limit : Nat) : ParseResult := .ofOutcome grammar
      (WalkM.run (do return source.root (← walkSections rule resume source.sections)) memory
        ⟨file, ⟨limit, 0⟩, [], events⟩)
    (result limits.low).Limited (bound + 3) (result limits.high) ∧
      ∃ failing, failing.Sublist source.sections ∧
        List.Forall₂ blames failing (result limits.low).diagnostics := by
  intro result
  have admits : limits.Admits file (⟨⟨file, ⟨limits.low, 0⟩, [], events⟩, memory⟩ : WalkState μ) :=
    ⟨rfl, rfl⟩
  obtain ⟨failing, added, sublist, blamed, ends⟩ :=
    sifted_walkSections source.sections (fun part _ => each part) admits
  have raised : (⟨⟨file, ⟨limits.low, 0⟩, [], events⟩, memory⟩ : WalkState μ).under limits.high =
      ⟨⟨file, ⟨limits.high, 0⟩, [], events⟩, memory⟩ := rfl
  rw [raised] at ends
  -- both runs are looked at through the run under the lower limit, which `ends` describes
  simp only [result]
  rw [WalkM.run_map, WalkM.run_map]
  cases outcome : walkSections rule resume source.sections
      ⟨⟨file, ⟨limits.low, 0⟩, [], events⟩, memory⟩ with
  | ok nodes final =>
    rw [outcome] at ends
    obtain ⟨diagnostics, low, behaves⟩ := ends
    have diagnostics : final.session.diagnostics = added := diagnostics
    refine ⟨⟨behaves.imp (fun depth => ?_) fun same => ?_, fun tree yields => ?_⟩, failing, sublist,
      ?_⟩
    · simpa only [ParseResult.ofOutcome, diagnostics] using depth
    · rw [same]
      rfl
    · cases yields
      exact source.within_root low
    · simpa only [ParseResult.ofOutcome, diagnostics] using blamed
  | error failure final =>
    rw [outcome] at ends
    obtain ⟨last, rfl, diagnostics, behaves⟩ := ends
    have diagnostics : final.session.diagnostics ++ [last] = added := diagnostics
    refine ⟨⟨behaves.imp (fun depth => ?_) fun same => ?_, fun tree yields => ?_⟩, failing, sublist,
      ?_⟩
    · simpa only [ParseResult.ofOutcome, Failure.diagnostic, diagnostics] using depth
    · rw [same]
      rfl
    · cases yields
    · simpa only [ParseResult.ofOutcome, Failure.diagnostic, diagnostics] using blamed

/-- What a limit does to the sections of a document, read with the grammar of a dialect. -/
theorem limited_document (limits : Limits) (file : String) (dialect : Dialect) (source : Document)
    (events : List Event) :
    let result (limit : Nat) : ParseResult := .ofOutcome (some dialect.grammar.name)
      (dialect.grammar.document source ⟨file, ⟨limit, 0⟩, [], events⟩)
    (result limits.low).Limited (7 * limits.low + 9) (result limits.high) ∧
      ∃ failing, failing.Sublist source.sections ∧
        List.Forall₂ (dialect.Blames file) failing (result limits.low).diagnostics := by
  cases dialect with
  | specs =>
    have each : ∀ part, (sectionNodes Specs.sectionRule part).Tracks limits file
        (Rule.All (Specs.IsLow limits)) (Specs.Blames file part) := Specs.tracks_sectionNodes
    have limited := limited_of_walk source Specs.isHeading (some Grammar.specs.name) events false
      each
    exact ⟨limited.1.mono (by omega), limited.2⟩
  | pseudo =>
    have each : ∀ part, (sectionNodes Pseudo.sectionRule part).Tracks limits file
        (Rule.All (Pseudo.IsLow limits)) (Pseudo.Blames file part) := Pseudo.tracks_sectionNodes
    have limited := limited_of_walk source (fun _ => false) (some Grammar.pseudoKernel.name) events
      () each
    exact ⟨limited.1.mono (by omega), limited.2⟩

/-- What a limit does to a document. -/
theorem limited_parseDocument (file : String) (defaultGrammar : Option String) (text : String)
    {low high : Int} (positive : 1 ≤ low) (ordered : low ≤ high) :
    (parseDocument .builtIn file low defaultGrammar text).Limited (7 * low.toNat + 9)
      (parseDocument .builtIn file high defaultGrammar text) := by
  have positive' : 1 ≤ high := Int.le_trans positive ordered
  cases read : readDocument file text with
  | error diagnostic =>
    rw [parseDocument_of_refused _ _ positive read, parseDocument_of_refused _ _ positive' read]
    exact ParseResult.limited_refused _ diagnostic none
  | ok source =>
    rw [parseDocument_of_read _ _ positive read, parseDocument_of_read _ _ positive' read]
    rcases selectGrammar_builtIn source ((source.directive.map Directive.grammar).or defaultGrammar)
      with ⟨dialect, selected, selects⟩ | ⟨diagnostic, refuses, _⟩
    · let limits : Limits := ⟨low.toNat, high.toNat, by omega⟩
      rw [parseSections_of_selected selects, parseSections_of_selected selects, selected]
      exact (limited_document limits file dialect source _).1
    · rw [parseSections_of_unselected refuses, parseSections_of_unselected refuses]
      exact ParseResult.limited_refused _ diagnostic _

/-! ## What callers see -/

/-- A parse that reports no nesting beyond its limit is the same under every greater limit: it
yields the same tree with the same spans and reports the same diagnostics. -/
theorem parse_eq_of_not_depth (file : String) (defaultGrammar : Option String) (text : String)
    (low high : Int) (positive : 1 ≤ low) (ordered : low ≤ high) :
    ((∀ diagnostic ∈ (parseDocument .builtIn file low defaultGrammar text).diagnostics,
        diagnostic.kind ≠ .depth) →
      parseDocument .builtIn file high defaultGrammar text =
        parseDocument .builtIn file low defaultGrammar text) ∧
    ((∀ diagnostic ∈ (parseType file low text).diagnostics, diagnostic.kind ≠ .depth) →
      parseType file high text = parseType file low text) := by
  refine ⟨fun shallow => ?_, fun shallow => ?_⟩
  · refine (limited_parseDocument file defaultGrammar text positive ordered).steady.resolve_left ?_
    rintro ⟨diagnostic, member, depth⟩
    exact shallow diagnostic member depth
  · refine (limited_parseType file text positive ordered).steady.resolve_left ?_
    rintro ⟨diagnostic, member, depth⟩
    exact shallow diagnostic member depth

/-- A union under the lowest limit, and a section that is dropped for another cause. -/
theorem parse_eq_of_not_depth_union : (1 : Int) ≤ 1 ∧ (1 : Int) ≤ 7 ∧
    parseDocument .builtIn "s" 7 (some "specs") "# a" =
      parseDocument .builtIn "s" 1 (some "specs") "# a" ∧
    parseType "t" 7 "a[] | b" = parseType "t" 1 "a[] | b" := by
  have reports : (parseDocument .builtIn "s" 1 (some "specs") "# a").diagnostics.map
      Diagnostic.kind = [.structural] := by decide +kernel
  have silent : (parseType "t" 1 "a[] | b").diagnostics = [] := by decide +kernel
  refine ⟨by decide, by decide,
    (parse_eq_of_not_depth "s" (some "specs") "# a" 1 7 (by decide) (by decide)).1 ?_,
    (parse_eq_of_not_depth "t" none "a[] | b" 1 7 (by decide) (by decide)).2 ?_⟩
  · intro diagnostic member
    have kind := List.mem_map_of_mem (f := Diagnostic.kind) member
    rw [reports, List.mem_singleton] at kind
    rw [kind]
    decide
  · rw [silent]
    exact List.forall_mem_nil _

/-- Whether a tree is what some text is parsed as under a limit, as a document or as a type. -/
def Node.IsParsed (limit : Int) (tree : Node) : Prop :=
  ∃ file text, (parseType file limit text).tree = some tree ∨
    ∃ defaultGrammar, (parseDocument .builtIn file limit defaultGrammar text).tree = some tree

/-- The limit bounds the nested height of every tree, and so the height of every tree without nodes
that repetitions make around what was read before. -/
theorem nestedHeight_le_of_parsed (limit : Int) (tree : Node) (parsed : tree.IsParsed limit) :
    (tree.nestedHeight : Int) ≤ 9 * (limit + 1) ∧
    ((∀ node ∈ tree.walk, node.surroundsFirst = false) →
      (tree.height : Int) ≤ 9 * (limit + 1)) := by
  have nested : (tree.nestedHeight : Int) ≤ 9 * (limit + 1) := by
    obtain ⟨file, text, yields⟩ := parsed
    by_cases positive : 1 ≤ limit
    · have within : tree.Within (7 * limit.toNat + 9) := by
        rcases yields with type | ⟨defaultGrammar, document⟩
        · have limited := limited_parseType file text positive (Int.le_refl limit)
          exact (limited.bounded tree type).mono (by omega)
        · have limited :=
            limited_parseDocument file defaultGrammar text positive (Int.le_refl limit)
          exact limited.bounded tree document
      unfold Node.Within at within
      omega
    · -- a limit that admits no nesting is refused, so that there is no tree
      rcases yields with type | ⟨_, document⟩
      · exact absurd (exists_tokens_of_parseType type).1 positive
      · exact absurd (exists_read_of_tree document).1 positive
  refine ⟨nested, fun plain => ?_⟩
  rw [Node.height_eq_nestedHeight tree plain]
  exact nested

/-- A name with four pairs of brackets. -/
theorem nestedHeight_le_of_parsed_array : ∃ tree : Node, tree.IsParsed 2 ∧ tree.height = 10 ∧
    (tree.nestedHeight : Int) ≤ 9 * (2 + 1) := by
  obtain ⟨text, tree, yields, height⟩ := exists_parseType_of_height "t" (show 1 ≤ 2 by decide) 4
  have parsed : tree.IsParsed 2 := ⟨"t", text, .inl yields⟩
  exact ⟨tree, parsed, height, (nestedHeight_le_of_parsed 2 tree parsed).1⟩

/-- The limit does not bound the height of trees: brackets are read by a repetition, and each pair
of them makes nodes around the type read before. -/
theorem height_unbounded : ¬∃ k : Nat, ∀ (limit : Int) (tree : Node), 1 ≤ limit →
    tree.IsParsed limit → (tree.height : Int) ≤ k * (limit + 1) := by
  rintro ⟨k, bounded⟩
  obtain ⟨text, tree, yields, height⟩ := exists_parseType_of_height "t" (Int.le_refl 1) k
  have small := bounded 1 tree (Int.le_refl 1) ⟨"t", text, .inl yields⟩
  rw [height] at small
  omega

end DocGrammar
