import DocGrammar.Proofs.Documents.Order

/-! # Spans name the parsed file

The name of a document goes into the spans of its tokens, and every other span is made of spans:
those of nodes, of sections and of what a section is blamed for. Only a name that no grammar has is
refused without the name of the document, if it is not a directive that gives it.

* **`Stand.isIn`** — nodes on tokens of a file are in the file.
* **`isIn_documentTokens`**, **`isIn_codeTokensFrom`** — both kinds of tokens are in the file.
* **`isIn_of_walk`** — a walk over sections of a file stays in the file.
* **`spans_name_file`** — the spans of a parse.
* **`file_of_unknown_default`** — the parse whose diagnostic names another file. -/

namespace DocGrammar

variable {file : String} {dialect : Dialect} {token : Token} {tokens : List Token} {node : Node}
  {nodes children : List Node} {part : Section} {item : Item} {block : FencedBlock}
  {diagnostic : Diagnostic}

/-! ## Nodes on tokens -/

/-- Whether a token stands in a file. -/
def Token.IsIn (file : String) (token : Token) : Prop := token.span.file = file

/-- Whether a diagnostic points into a file. -/
def Diagnostic.IsIn (file : String) (diagnostic : Diagnostic) : Prop := diagnostic.span.file = file

/-- Whether all nodes of a tree stand in a file. -/
def Node.IsIn (file : String) (tree : Node) : Prop :=
  ∀ node ∈ tree.walk, ∀ span ∈ node.span, span.file = file

/-- A tree stands in a file if its root and its members do. -/
theorem Node.isIn_of_children (own : ∀ span ∈ node.span, span.file = file)
    (below : ∀ child ∈ node.children, child.IsIn file) : node.IsIn file :=
  Node.forall_mem_walk.mpr ⟨own, below⟩

theorem Node.isIn_leafOf (kind : NodeKind) (text : String) {span : Span}
    (own : span.file = file) : (Node.leafOf kind text span).IsIn file := by
  refine isIn_of_children ?_ (List.forall_mem_nil _)
  rintro _ ⟨⟩
  exact own

/-- A span that some tokens give is in their file. -/
theorem Framed.isIn {span : Option Span} (framed : Framed tokens span)
    (placed : ∀ token ∈ tokens, token.IsIn file) : ∀ own ∈ span, own.file = file := by
  obtain ⟨first, _, head, _, _, _, rfl⟩ := framed
  rintro _ ⟨⟩
  exact placed first (List.mem_of_head? head)

/-- Nodes that stand on tokens are in the file of the tokens. -/
theorem Stand.isIn (stand : Stand dialect tokens nodes)
    (placed : ∀ token ∈ tokens, token.IsIn file) : ∀ node ∈ nodes, node.IsIn file := by
  induction stand with
  | none => exact List.forall_mem_nil _
  | skip _ ih => exact ih (List.forall_mem_cons.mp placed).2
  | leaf made behind ih =>
    obtain ⟨here, later⟩ := List.forall_mem_cons.mp placed
    refine List.forall_mem_cons.mpr ⟨Node.isIn_of_children ?_ (List.forall_mem_nil _), ih later⟩
    rintro _ ⟨⟩
    exact here
  | signed specs minus number behind ih =>
    obtain ⟨sign, later⟩ := List.forall_mem_cons.mp placed
    refine List.forall_mem_cons.mpr ⟨Node.isIn_of_children ?_ (List.forall_mem_nil _),
      ih (List.forall_mem_cons.mp later).2⟩
    rintro _ ⟨⟩
    exact sign
  | inner inside framed branches behind ihInside ih =>
    obtain ⟨here, later⟩ := List.forall_mem_append.mp placed
    exact List.forall_mem_cons.mpr
      ⟨Node.isIn_of_children (framed.isIn here) (ihInside here), ih later⟩

/-! ## Tokens -/

/-- Code is in the file that it is read for, and so is the place where something is wrong. -/
theorem isIn_codeTokensFrom (keywords : KeywordTable) (file : String) (state : CodeState)
    (chars : List Char) :
    CodeWhere (fun span => span.file = file) (codeTokensFrom keywords file state chars) := by
  fun_induction codeTokensFrom keywords file state chars with
  | case1 state => exact List.forall_mem_singleton.mpr rfl
  | case2 state char rest space ih => exact ih
  | case3 state rest ends space ih => exact ih.cons rfl
  | case4 state rest ends space ih => exact ih
  | case5 state char rest space noFeed fault scanned => exact rfl
  | case6 state char rest space noFeed lexeme scanned chars ih => exact ih.cons rfl

theorem isIn_shapeTokens (file : String) (number : Nat) (row : List Char) (shape : LineShape) :
    ∀ token ∈ shapeTokens file number row shape, token.IsIn file := by
  cases shape with
  | link pieces =>
    refine List.forall_mem_append.mpr ⟨List.forall_mem_append.mpr ⟨?_, ?_⟩,
      List.forall_mem_singleton.mpr rfl⟩
    · simp [Token.IsIn, tokenAt]
    · split
      · exact List.forall_mem_nil _
      · exact List.forall_mem_singleton.mpr rfl
  | _ => simp [shapeTokens, Token.IsIn, tokenAt, lineEndToken]

theorem isIn_lineTokens (file : String) (number : Nat) (row : List Char) (openFence : Option Nat) :
    ∀ token ∈ (lineTokens file number row openFence).1, token.IsIn file := by
  cases openFence with
  | none => exact isIn_shapeTokens file number row _
  | some ticks =>
    rw [lineTokens]
    split <;> simp [Token.IsIn, tokenAt, lineEndToken]

/-- The tokens of some rows are in the file, and so is a forbidden character. -/
theorem isIn_tokensOfLines (file : String) (openFence : Option Nat) (number : Nat)
    (rows : List (List Char)) :
    CodeWhere (fun span => span.file = file) (tokensOfLines file openFence number rows) := by
  induction rows generalizing openFence number with
  | nil => exact List.forall_mem_nil _
  | cons raw others ih =>
    rcases tokensOfLines_cases file openFence number raw others with ⟨_, forbidden, refused⟩ |
      ⟨_, mapped⟩
    · -- a forbidden character is reported in the file that is read
      obtain ⟨_, _, rfl⟩ := exists_of_forbiddenCharacter? forbidden
      rw [refused]
      exact rfl
    · have behind := ih (lineTokens file number (dropReturn raw) openFence).2 (number + 1)
      rw [mapped]
      cases read : tokensOfLines file (lineTokens file number (dropReturn raw) openFence).2
          (number + 1) others with
      | error diagnostic =>
        rw [read] at behind
        exact behind
      | ok later =>
        rw [read] at behind
        exact List.forall_mem_append.mpr ⟨isIn_lineTokens file number _ openFence, behind⟩

/-- The tokens of a text are in the file, and so is a forbidden character. -/
theorem isIn_documentTokens (file text : String) :
    CodeWhere (fun span => span.file = file) (documentTokens file text) := by
  have rows := isIn_tokensOfLines file none 1 (feedLines text.toList)
  rw [documentTokens_eq]
  cases read : tokensOfLines file none 1 (feedLines text.toList) with
  | error diagnostic =>
    rw [read] at rows
    exact rows
  | ok tokens =>
    rw [read] at rows
    exact List.forall_mem_append.mpr ⟨rows, List.forall_mem_singleton.mpr rfl⟩

/-! ## Sections -/

/-- Whether what a section holds stands in a file. -/
structure Section.IsIn (file : String) (part : Section) : Prop where
  /-- Its tokens do. -/
  tokens : ∀ token ∈ part.tokens, token.IsIn file
  /-- What is wrong with it does. -/
  failure : ∀ diagnostic ∈ part.failure, diagnostic.IsIn file

/-- Whether a directive, the sections and the end of a document stand in a file. -/
structure Document.IsIn (file : String) (source : Document) : Prop where
  /-- The document is named after the file. -/
  named : source.file = file
  /-- Its directive stands in the file. -/
  directive : ∀ directive ∈ source.directive, directive.token.IsIn file
  /-- Its sections do. -/
  sections : ∀ part ∈ source.sections, part.IsIn file

theorem Document.file_of_ofTokens {source : Document} (cuts : ofTokens file tokens = .ok source) :
    source.file = file :=
  (exists_sections_of_ofTokens cuts).1

/-- A document that is cut out of tokens is in their file. -/
theorem Document.isIn_of_ofTokens {source : Document} (ends : EndsInput tokens)
    (placed : ∀ token ∈ tokens, token.IsIn file) (cuts : ofTokens file tokens = .ok source) :
    source.IsIn file := by
  obtain ⟨rest, parts, split, cut, sections⟩ := exists_cutInto ends cuts
  have held := tokens_of_cutInto split cut sections
  have inside : ∀ token ∈ source.tokens, token.IsIn file := by
    rw [held]
    exact fun token member => placed token (List.mem_of_mem_filter member)
  have sublist : source.sections.Sublist parts := sections ▸ dropEmptyPreamble_sublist parts
  refine ⟨file_of_ofTokens cuts, fun directive named => ?_, fun part member => ?_⟩
  · exact inside _ (List.mem_append_left _ (List.mem_map_of_mem (Option.mem_toList.mpr named)))
  · have own : ∀ token ∈ part.tokens, token.IsIn file := fun token within =>
      inside token (List.mem_append_right _ (List.mem_flatMap.mpr ⟨part, member, within⟩))
    refine ⟨own, fun diagnostic failure => ?_⟩
    obtain ⟨opener, inside, _, span⟩ :=
      (cut.formed part (sublist.subset member)).exists_opener failure
    rw [Diagnostic.IsIn, span]
    exact own opener inside

namespace Section.IsIn

variable {heading : Heading}

theorem item_tokens (isIn : part.IsIn file) (member : item ∈ part.items) :
    ∀ token ∈ item.tokens, token.IsIn file := fun token inside =>
  isIn.tokens token (Section.mem_tokens_of_item member inside)

theorem marker (isIn : part.IsIn file) (found : part.heading = some heading) :
    heading.marker.IsIn file :=
  isIn.tokens _ (Section.mem_tokens_of_heading found List.mem_cons_self)

theorem title (isIn : part.IsIn file) (found : part.heading = some heading) :
    heading.title.IsIn file :=
  isIn.tokens _ (Section.mem_tokens_of_heading found (List.mem_cons_of_mem _ List.mem_cons_self))

end Section.IsIn

/-- A walk that tracks under some limits yields what it yields in the file that it reads. -/
theorem WalkM.Tracks.judge {μ α : Type} {limits : Limits} {walk : WalkM μ α}
    {good better : α → Prop} {blames : Diagnostic → Prop}
    (tracks : walk.Tracks limits file good blames)
    (judged : ∀ {state value final}, state.session.file = file → walk state = .ok value final →
      better value) : walk.Tracks limits file better blames := by
  intro state admits
  have ensured := tracks state admits
  cases outcome : walk state with
  | ok value final =>
    rw [outcome] at ensured
    exact ⟨ensured.1, judged admits.file outcome, ensured.2.2⟩
  | error failure final =>
    rw [outcome] at ensured
    exact ensured

/-! ## Sections of pseudo-kernel documents -/

namespace Pseudo

theorem isIn_lineLeaves (kind : NodeKind) (placed : ∀ token ∈ block.tokens, token.IsIn file) :
    ∀ node ∈ lineLeaves kind block, node.IsIn file := by
  intro node member
  obtain ⟨line, inside, rfl⟩ := List.mem_map.mp member
  have own : line ∈ block.tokens :=
    List.mem_cons_of_mem _ (List.mem_append_left _ (List.mem_of_mem_filter inside))
  exact Node.isIn_leafOf _ _ (placed line own)

/-- The node of a block, around nodes in its file. -/
theorem isIn_fenced (kind : NodeKind) (placed : ∀ token ∈ block.tokens, token.IsIn file)
    (inner : ∀ child ∈ children, child.IsIn file) :
    (Node.spanning kind children (some block.span)).IsIn file := by
  refine Node.isIn_of_children ?_ inner
  rintro _ ⟨⟩
  exact placed block.opener List.mem_cons_self

theorem isIn_codeNode (placed : ∀ token ∈ block.tokens, token.IsIn file) :
    (codeNode block).IsIn file := by
  refine isIn_fenced _ placed (List.forall_mem_append.mpr ⟨?_, isIn_lineLeaves _ placed⟩)
  split
  · exact List.forall_mem_nil _
  · exact List.forall_mem_singleton.mpr
      (Node.isIn_leafOf _ _ (placed block.opener List.mem_cons_self))

theorem isIn_linkNode {link : ContextLink} (placed : ∀ token ∈ link.tokens, token.IsIn file) :
    (linkNode link).IsIn file := by
  obtain ⟨bullet, target, description⟩ := link
  obtain ⟨here, there, behind⟩ : bullet.IsIn file ∧ target.IsIn file ∧
      ∀ token ∈ description, token.IsIn file := by
    simpa [ContextLink.tokens] using placed
  refine Node.isIn_of_children ?_ (List.forall_mem_cons.mpr ⟨Node.isIn_leafOf _ _ there, ?_⟩)
  · rintro _ ⟨⟩
    exact here
  · intro node member
    obtain ⟨token, own, rfl⟩ := Option.map_eq_some_iff.mp (Option.mem_toList.mp member)
    exact Node.isIn_leafOf _ _ (behind token own)

/-- The tokens of a fenced block of statements are in the file, and so is what cannot be read. -/
theorem isIn_code (file : String) (block : FencedBlock) :
    CodeWhere (fun span => span.file = file)
      (codeTokens .pseudo file ⟨block.firstLine, 1⟩ block.text) :=
  isIn_codeTokensFrom .pseudo file _ _

variable {state final : WalkState Unit}

/-- What an item is read as is in its file. -/
theorem isIn_itemNode (named : state.session.file = file)
    (placed : ∀ token ∈ item.tokens, token.IsIn file)
    (reads : itemNode item state = .ok node final) : node.IsIn file := by
  cases item with
  | text block =>
    cases reads
    exact Node.isIn_leafOf _ _ (placed block.first List.mem_cons_self)
  | link link =>
    cases reads
    exact isIn_linkNode placed
  | fenced block =>
    rcases fencedNode_cases reads with ⟨code, _, _, _, lexed, seen, built, rfl⟩ | rfl | rfl
    · have tokens := isIn_code state.session.file block
      rw [lexed] at tokens
      refine isIn_fenced _ placed (built.stands.isIn fun token member => ?_)
      have inside : token ∈ WalkM.seen code := seen ▸ List.mem_append_left _ member
      rw [Token.IsIn, ← named]
      exact tokens token (List.mem_of_mem_filter inside)
    · exact isIn_fenced _ placed (isIn_lineLeaves _ placed)
    · exact isIn_codeNode placed

/-- A section is blamed for something in its file. -/
theorem isIn_of_blames (isIn : part.IsIn file) (blamed : Blames file part diagnostic) :
    diagnostic.IsIn file := by
  cases blamed with
  | fence failure => exact isIn.failure _ failure
  | @unread block _ sound member refused =>
    have code := isIn_code file block
    rw [refused] at code
    exact code
  | @token block code token cause sound member read seen =>
    have places := isIn_code file block
    rw [read] at places
    exact places token (List.mem_of_mem_filter seen)

/-- A section is read in its file. -/
theorem tracks_isIn {limits : Limits} (isIn : part.IsIn file) :
    (sectionNodes sectionRule part).Tracks limits file (Rule.All (Node.IsIn file))
      (Diagnostic.IsIn file) := by
  refine (tracks_section (fun heading found => ?_) fun item member sound => ?_).mono
    (fun _ all => all) fun _ => isIn_of_blames isIn
  · exact Node.isIn_leafOf _ _ (isIn.marker found)
  · exact (tracks_itemNode sound member).judge fun named reads =>
      isIn_itemNode named (isIn.item_tokens member) reads

end Pseudo

/-! ## Sections of specs documents -/

namespace Specs

variable {heading : Heading} {items : List Item} {line : Token} {state final : WalkState Bool}

theorem isIn_lineCode (placed : line.IsIn file) :
    CodeWhere (fun span => span.file = file) (lineCode file line) := by
  have code := isIn_codeTokensFrom .specs file (.start line.span.start) line.value.toList
  unfold lineCode
  cases read : codeTokens .specs file line.span.start line.value with
  | error diagnostic =>
    rw [codeTokens] at read
    rw [read] at code
    exact code
  | ok tokens =>
    rw [codeTokens] at read
    rw [read] at code
    refine List.forall_mem_append.mpr ⟨?_, List.forall_mem_singleton.mpr placed⟩
    exact fun token member => code token (List.mem_of_mem_filter member)

theorem isIn_itemCode (placed : ∀ token ∈ item.tokens, token.IsIn file) :
    CodeWhere (fun span => span.file = file) (itemCode file item) := by
  cases item with
  | fenced block => exact List.forall_mem_nil _
  | link link => exact placed link.bullet List.mem_cons_self
  | text block => exact codeWhere_mapM fun line member => isIn_lineCode (placed line member)

/-- The tokens of a body are in the file of its heading and its items. -/
theorem isIn_bodyCode (title : heading.title.IsIn file)
    (placed : ∀ item ∈ items, ∀ token ∈ item.tokens, token.IsIn file) :
    CodeWhere (fun span => span.file = file) (bodyCode file heading items) := by
  have pieces : CodeWhere (fun span => span.file = file)
      (do return (← items.mapM (itemCode file)).flatten) :=
    codeWhere_mapM fun item member => isIn_itemCode (placed item member)
  unfold bodyCode
  cases read : items.mapM (itemCode file) with
  | error diagnostic =>
    rw [read] at pieces
    exact pieces
  | ok lists =>
    rw [read] at pieces
    refine List.forall_mem_append.mpr ⟨pieces, List.forall_mem_singleton.mpr ?_⟩
    -- the end of the input stands behind the last token, or behind the title if there is none
    cases final : lists.flatten.getLast? with
    | none => exact title
    | some token => exact pieces token (List.mem_of_getLast? final)

/-- What a section of level two is read as is in its file. -/
theorem isIn_bodySection {kind : SpecSection} (isIn : part.IsIn file)
    (found : part.heading = some heading) (named : state.session.file = file)
    (reads : bodySection kind heading part.items state = .ok node final) : node.IsIn file := by
  obtain ⟨code, body, _, lexed, runs, rfl⟩ := exists_of_bodySection reads
  obtain ⟨read, rest, seen, isBody⟩ :=
    WalkM.exists_of_runRule kind.gives_body (endsInput_bodyCode lexed) runs
  have tokens := isIn_bodyCode (isIn.title found) fun item member => isIn.item_tokens member
  rw [← named, lexed] at tokens
  refine Node.isIn_of_children ?_ (isBody.sound.stands.isIn fun token member => ?_)
  · rintro _ ⟨⟩
    exact isIn.marker found
  · have inside : token ∈ WalkM.seen code := seen ▸ List.mem_append_left _ member
    rw [Token.IsIn, ← named]
    exact tokens token (List.mem_of_mem_filter inside)

/-- What a feature is read as is in its file. -/
theorem isIn_feature {tail : List Char} (isIn : part.IsIn file)
    (found : part.heading = some heading)
    (reads : feature heading part.items tail state = .ok node final) : node.IsIn file := by
  obtain ⟨_, rfl⟩ := feature_ok reads
  refine Node.isIn_of_children ?_ (List.forall_mem_singleton.mpr ?_)
  · rintro _ ⟨⟩
    exact isIn.marker found
  · exact Node.isIn_leafOf _ _ (isIn.title found)

/-- A section is blamed for something in its file. -/
theorem isIn_of_blames (isIn : part.IsIn file) (blamed : Blames file part diagnostic) :
    diagnostic.IsIn file := by
  have body : ∀ {heading : Heading}, part.heading = some heading →
      CodeWhere (fun span => span.file = file) (bodyCode file heading part.items) :=
    fun found => isIn_bodyCode (isIn.title found) fun item member => isIn.item_tokens member
  cases blamed with
  | fence failure => exact isIn.failure _ failure
  | @item item cause member =>
    have tokens := isIn.item_tokens member
    cases item with
    | text block => exact tokens block.first List.mem_cons_self
    | fenced block => exact tokens block.opener List.mem_cons_self
    | link context => exact tokens context.bullet List.mem_cons_self
  | heading found => exact isIn.marker found
  | title found => exact isIn.title found
  | unread found refused =>
    -- a fault in the code of a body and a token of it are both known from the whole body
    have code := body found
    rw [refused] at code
    exact code
  | token found read member =>
    have code := body found
    rw [read] at code
    exact code _ (List.mem_of_mem_filter member)

/-- A section is read in its file. -/
theorem tracks_isIn {limits : Limits} (isIn : part.IsIn file) :
    (sectionNodes sectionRule part).Tracks limits file (Rule.All (Node.IsIn file))
      (Diagnostic.IsIn file) := by
  refine (tracks_section (fun heading tail found => ?_) fun heading kind found => ?_).mono
    (fun _ all => all) fun _ => isIn_of_blames isIn
  · exact (tracks_feature found tail).judge fun _ reads => isIn_feature isIn found reads
  · exact (tracks_bodySection kind found).judge fun named reads =>
      isIn_bodySection isIn found named reads

end Specs

/-! ## Documents -/

/-- Whether the tree and the diagnostics of a parse are in a file. -/
structure ParseResult.IsIn (file : String) (result : ParseResult) : Prop where
  /-- Every node of the tree is. -/
  tree : ∀ tree ∈ result.tree, tree.IsIn file
  /-- Every diagnostic is. -/
  diagnostics : ∀ diagnostic ∈ result.diagnostics, diagnostic.IsIn file

theorem ParseResult.isIn_refused (here : diagnostic.IsIn file) (grammar : Option String) :
    ParseResult.IsIn file { refused diagnostic with grammar := grammar } :=
  ⟨nofun, List.forall_mem_singleton.mpr here⟩

/-- The root of a document is in its file, if the nodes below it are. -/
theorem Document.isIn_root {source : Document} (isIn : source.IsIn file)
    (below : ∀ node ∈ nodes, node.IsIn file) : (source.root nodes).IsIn file := by
  refine Node.isIn_of_children ?_ (List.forall_mem_append.mpr ⟨fun node member => ?_, below⟩)
  · rintro _ ⟨⟩
    exact isIn.named
  · obtain ⟨directive, found, rfl⟩ := Option.map_eq_some_iff.mp (Option.mem_toList.mp member)
    have here := isIn.directive directive found
    refine Node.isIn_of_children ?_ (List.forall_mem_singleton.mpr (Node.isIn_leafOf _ _ here))
    rintro _ ⟨⟩
    exact here

/-- A walk over the sections of a document stays in their file. -/
theorem isIn_of_walk {μ : Type} {rule : Section → WalkM μ (List Node)} {source : Document}
    (isIn : source.IsIn file) (resume : Section → Bool) (grammar : Option String) (limit : Nat)
    (events : List Event) (memory : μ)
    (each : ∀ part, part.IsIn file → (sectionNodes rule part).Tracks ⟨limit, limit, Nat.le_refl _⟩
      file (Rule.All (Node.IsIn file)) (Diagnostic.IsIn file)) :
    (ParseResult.ofOutcome grammar
      (WalkM.run (do return source.root (← walkSections rule resume source.sections)) memory
        ⟨file, ⟨limit, 0⟩, [], events⟩)).IsIn file := by
  have admits : Limits.Admits ⟨limit, limit, Nat.le_refl _⟩ file
      (⟨⟨file, ⟨limit, 0⟩, [], events⟩, memory⟩ : WalkState μ) := ⟨rfl, rfl⟩
  -- a walk is followed under two equal limits, which leaves what it says of one run
  obtain ⟨failing, added, _, blamed, ends⟩ := sifted_walkSections source.sections
    (fun part member => each part (isIn.sections part member)) admits
  have inside : ∀ diagnostic ∈ added, diagnostic.IsIn file := by
    intro diagnostic member
    obtain ⟨_, _, here⟩ := exists_of_mem_forall₂ blamed member
    exact here
  rw [WalkM.run_map]
  cases outcome : walkSections rule resume source.sections
      ⟨⟨file, ⟨limit, 0⟩, [], events⟩, memory⟩ with
  | ok nodes final =>
    rw [outcome] at ends
    obtain ⟨diagnostics, below, _⟩ := ends
    have diagnostics : final.session.diagnostics = added := diagnostics
    refine ⟨?_, ?_⟩
    · rintro _ ⟨⟩
      exact Document.isIn_root isIn below
    · show ∀ diagnostic ∈ final.session.diagnostics, diagnostic.IsIn file
      rwa [diagnostics]
  | error failure final =>
    rw [outcome] at ends
    obtain ⟨last, rfl, diagnostics, _⟩ := ends
    have diagnostics : final.session.diagnostics ++ [last] = added := diagnostics
    refine ⟨nofun, ?_⟩
    show ∀ diagnostic ∈ final.session.diagnostics ++ [last], diagnostic.IsIn file
    rwa [diagnostics]

/-! ## Grammars -/

/-- Whether all grammars of a registry read documents by the rules of this library, whatever their
names are. -/
def Registry.IsStandard (registry : Registry) : Prop :=
  ∀ grammar ∈ registry.grammars,
    grammar.document = Specs.document ∨ grammar.document = Pseudo.document

variable {registry : Registry} {source : Document} {selected : Option String}

/-- The sections of a document are read in its file by the grammars of a standard registry. -/
theorem isIn_of_selectGrammar {grammar : Grammar} (standard : registry.IsStandard)
    (isIn : source.IsIn file) (limit : Nat)
    (selects : selectGrammar registry source selected = .ok grammar) :
    (parseSections registry ⟨file, ⟨limit, 0⟩, [], []⟩ source selected).IsIn file := by
  have known : grammar ∈ registry.grammars := by
    rcases selectGrammar_cases registry source selected with
      ⟨_, refused⟩ | ⟨_, _, ⟨_, refused⟩ | ⟨_, found, selects'⟩⟩
    · cases refused.symm.trans selects
    · cases refused.symm.trans selects
    · cases selects'.symm.trans selects
      exact List.mem_of_find?_eq_some found
  rw [parseSections_of_selected selects]
  rcases standard grammar known with specs | pseudo
  · rw [specs]
    exact isIn_of_walk isIn Specs.isHeading selected limit _ false fun part => Specs.tracks_isIn
  · rw [pseudo]
    exact isIn_of_walk isIn (fun _ => false) selected limit _ () fun part => Pseudo.tracks_isIn

/-- A name that no grammar has is refused in the file, unless no directive gives it. -/
theorem isIn_or_unknown (isIn : source.IsIn file)
    (refused : selectGrammar registry source selected = .error diagnostic) :
    diagnostic.IsIn file ∨
      source.directive = none ∧ ∃ name, selected = some name ∧ registry.find? name = none := by
  rcases selectGrammar_cases registry source selected with
    ⟨_, refused'⟩ | ⟨name, named, ⟨unknown, refused'⟩ | ⟨_, _, selects⟩⟩
  · cases refused'.symm.trans refused
    exact Or.inl isIn.named
  · cases refused'.symm.trans refused
    cases directs : source.directive with
    | none => exact Or.inr ⟨rfl, name, named, unknown⟩
    | some directive => exact Or.inl (isIn.directive directive directs)
  · cases selects.symm.trans refused

/-! ## Texts -/

/-- Whether a parse refuses its default grammar: the text is cut into sections without a directive
before them, and no grammar has the default name. -/
structure RefusesDefault (registry : Registry) (file : String) (limit : Int)
    (defaultGrammar : Option String) (text : String) : Prop where
  /-- The limit admits some nesting. -/
  positive : 1 ≤ limit
  /-- The text is read, and it has no directive. -/
  plain : ∃ source, readDocument file text = .ok source ∧ source.directive = none
  /-- There is a default name, but no grammar. -/
  unknown : ∃ name, defaultGrammar = some name ∧ registry.find? name = none

variable {limit : Int} {defaultGrammar : Option String} {text : String}

/-- A default name that is refused is refused at the start of a nameless text. -/
theorem RefusesDefault.exists_name
    (refuses : RefusesDefault registry file limit defaultGrammar text) :
    ∃ name, defaultGrammar = some name ∧
      (parseDocument registry file limit defaultGrammar text).tree = none ∧
      (parseDocument registry file limit defaultGrammar text).diagnostics =
        [⟨.unknownGrammar name registry.names, Span.fileStart inputFile⟩] := by
  obtain ⟨positive, ⟨source, read, bare⟩, name, rfl, unknown⟩ := refuses
  have refused : selectGrammar registry source (some name) =
      .error ⟨.unknownGrammar name registry.names, Span.fileStart inputFile⟩ := by
    rw [selectGrammar_of_unknown unknown, bare]
    rfl
  refine ⟨name, rfl, ?_⟩
  rw [parseDocument_of_read registry _ positive read, bare, Option.map_none, Option.none_or,
    parseSections_of_unselected refused]
  exact ⟨rfl, rfl⟩

/-- A text is read in its file, or the place where it cannot be read is in the file. -/
theorem isIn_readDocument (file text : String) :
    match readDocument file text with
    | .ok source => source.IsIn file
    | .error diagnostic => diagnostic.IsIn file := by
  have rows := rows_of_documentTokens file text
  have placed := isIn_documentTokens file text
  rcases readDocument_cases file text with ⟨diagnostic, lexed, fails⟩ | ⟨tokens, lexed, made⟩
  · rw [lexed] at placed
    rw [fails]
    exact placed
  · rw [lexed] at rows placed
    rw [made]
    have placed : ∀ token ∈ tokens, token.IsIn file := placed
    cases cuts : Document.ofTokens file tokens with
    | error diagnostic =>
      obtain ⟨token, member, place⟩ := Document.exists_of_ofTokens cuts
      show diagnostic.span.file = file
      rw [place]
      exact placed token member
    | ok source => exact Document.isIn_of_ofTokens rows.ends placed cuts

/-- A parse with a standard registry stays in the file, unless it refuses its default grammar. -/
theorem isIn_or_refusesDefault (standard : registry.IsStandard) (file : String) (limit : Int)
    (defaultGrammar : Option String) (text : String) :
    (parseDocument registry file limit defaultGrammar text).IsIn file ∨
      RefusesDefault registry file limit defaultGrammar text := by
  have inFile := isIn_readDocument file text
  rcases parseDocument_cases registry defaultGrammar file limit text with
    ⟨_, refused⟩ | ⟨_, diagnostic, unread, refused⟩ | ⟨positive, source, read, parsed⟩
  · have here : Diagnostic.IsIn file ⟨.invalidLimit limit, Span.fileStart file⟩ := rfl
    rw [refused]
    exact Or.inl (ParseResult.isIn_refused here none)
  · rw [unread] at inFile
    rw [refused]
    exact Or.inl (ParseResult.isIn_refused inFile none)
  · rw [read] at inFile
    rw [parsed]
    cases selects : selectGrammar registry source
        ((source.directive.map Directive.grammar).or defaultGrammar) with
    | ok grammar => exact Or.inl (isIn_of_selectGrammar standard inFile _ selects)
    | error diagnostic =>
      rw [parseSections_of_unselected selects]
      refine (isIn_or_unknown inFile selects).imp
        (fun here => ParseResult.isIn_refused here _) ?_
      -- without a directive the name that is unknown is the default
      rintro ⟨bare, name, named, unknown⟩
      rw [bare, Option.map_none, Option.none_or] at named
      exact ⟨positive, ⟨source, read, bare⟩, name, named, unknown⟩

/-- Every node of a tree that a standard registry yields is in the parsed file. So is every
diagnostic, unless the parse refuses its default grammar: then the only diagnostic points to the
start of a nameless text. -/
theorem spans_name_file (registry : Registry) (standard : registry.IsStandard) (file : String)
    (limit : Int) (defaultGrammar : Option String) (text : String) :
    let parse := parseDocument registry file limit defaultGrammar text
    (∀ tree ∈ parse.tree, ∀ node ∈ tree.walk, ∀ span ∈ node.span, span.file = file) ∧
      ((∀ diagnostic ∈ parse.diagnostics, diagnostic.span.file = file) ↔
        (RefusesDefault registry file limit defaultGrammar text → file = inputFile)) := by
  intro parse
  by_cases refuses : RefusesDefault registry file limit defaultGrammar text
  · obtain ⟨name, _, tree, diagnostics⟩ := refuses.exists_name
    have none : parse.tree = none := tree
    have alone : parse.diagnostics = _ := diagnostics
    rw [none, alone, List.forall_mem_singleton]
    refine ⟨nofun, ?_⟩
    exact ⟨fun same _ => same.symm, fun same => (same refuses).symm⟩
  · have isIn := (isIn_or_refusesDefault standard file limit defaultGrammar text).resolve_right
      refuses
    exact ⟨isIn.tree, fun _ refused => absurd refused refuses, fun _ => isIn.diagnostics⟩

theorem isStandard_builtIn : Registry.builtIn.IsStandard := by
  intro grammar member
  rcases List.mem_cons.mp member with rfl | last
  · exact Or.inl rfl
  · exact Or.inr (congrArg Grammar.document (List.mem_singleton.mp last))

/-- A feature and a section with an unknown title. -/
theorem spans_name_file_feature : Registry.builtIn.IsStandard ∧
    (parseDocument .builtIn "f.md" 8 (some "specs") "# Feature: a\n## b").diagnostics.map
      (·.span.file) = ["f.md"] ∧
    ∃ tree, (parseDocument .builtIn "f.md" 8 (some "specs") "# Feature: a\n## b").tree = some tree ∧
      ∀ node ∈ tree.walk, ∀ span ∈ node.span, span.file = "f.md" := by
  have names : (parseDocument .builtIn "f.md" 8 (some "specs")
      "# Feature: a\n## b").diagnostics.map (·.span.file) = ["f.md"] := by cbv
  have found : (parseDocument .builtIn "f.md" 8 (some "specs")
      "# Feature: a\n## b").tree.isSome = true := by cbv
  obtain ⟨tree, yields⟩ := Option.isSome_iff_exists.mp found
  exact ⟨isStandard_builtIn, names, tree, yields,
    (spans_name_file .builtIn isStandard_builtIn _ _ _ _).1 tree yields⟩

/-- An unknown default grammar is refused in a file that was not parsed. -/
theorem file_of_unknown_default : ∃ diagnostic ∈
    (parseDocument .builtIn "f.md" 100 (some "nope") "").diagnostics,
    diagnostic.span.file = "<input>" ∧ "<input>" ≠ "f.md" := by
  have bare : (readDocument "f.md" "").map Document.directive = .ok none := by cbv
  have unknown : (Registry.builtIn.find? "nope").isNone = true := by cbv
  obtain ⟨source, read, plain⟩ : ∃ source, readDocument "f.md" "" = .ok source ∧
      source.directive = none := by
    cases read : readDocument "f.md" "" with
    | error diagnostic =>
      rw [read] at bare
      cases bare
    | ok source =>
      rw [read] at bare
      exact ⟨source, rfl, Except.ok.inj bare⟩
  have refuses : RefusesDefault .builtIn "f.md" 100 (some "nope") "" :=
    ⟨by decide, ⟨source, read, plain⟩, "nope", rfl, Option.isNone_iff_eq_none.mp unknown⟩
  obtain ⟨name, _, _, alone⟩ := refuses.exists_name
  refine ⟨⟨.unknownGrammar name Registry.builtIn.names, Span.fileStart inputFile⟩, ?_, rfl,
    by decide⟩
  rw [alone]
  exact List.mem_cons_self

end DocGrammar
