import DocGrammar.Proofs.Documents.Placed
import DocGrammar.Proofs.Documents.Walked
import DocGrammar.Proofs.Pseudo.Built
import DocGrammar.Proofs.Trees.Placed
import DocGrammar.Pseudo.Document

/-! # Sections of pseudo-kernel documents

Reading a section leaves the parse as it was. Its nodes conform to the schema, and they stand where
the heading and the items of the section stand.

* **`Pseudo.isolated_sectionRule`** — reading a section is isolated.
* **`Pseudo.ItemRead`** — what the items of a section are read as.
* **`Pseudo.isPart_of_sectionRule`** — the nodes of a section are parts of a document.
* **`Pseudo.along_of_sectionRule`** — they stand along the text of the section. -/

namespace DocGrammar

namespace Pseudo

variable {state final : WalkState Unit} {part : Section} {item : Item} {block : FencedBlock}
  {node : Node} {nodes : List Node}

/-! ## Sections stand alone -/

theorem plain_keywords : KeywordTable.pseudo.isVerbatim = true := rfl

/-- The tokens of a fenced block of statements end with the input. -/
theorem endsInput_code {file text : String} {start : Position} {code : List Token}
    (lexed : codeTokens .pseudo file start text = .ok code) : EndsInput (WalkM.seen code) :=
  (codeRead_of_codeTokensFrom plain_keywords lexed).endsInput

theorem isolated_fencedNode (block : FencedBlock) : (fencedNode block).Isolated () () := by
  have takes : Statement.all.Takes fun _ => 0 :=
    Statement.gives_all.takes fun _ _ _ => Nat.zero_le _
  unfold fencedNode
  refine WalkM.Isolated.ite (fun _ => ?_) fun _ => WalkM.Isolated.ite (fun _ => ?_) fun _ => ?_
  · refine WalkM.isolated_file_bind fun file => WalkM.isolated_ofExcept_bind fun code lexed => ?_
    have runs : (WalkM.runRule Statement.all code : PseudoM (List Node)).Isolated () () :=
      WalkM.isolated_runRule takes (endsInput_code lexed)
    exact runs.bind fun nodes => WalkM.isolated_pure _
  · exact WalkM.isolated_pure _
  · exact WalkM.isolated_pure _

theorem isolated_itemNode (item : Item) : (itemNode item).Isolated () () := by
  cases item with
  | text block => exact WalkM.isolated_pure _
  | link link => exact WalkM.isolated_pure _
  | fenced block => exact isolated_fencedNode block

/-- Reading a section leaves the parse as it was. -/
theorem isolated_sectionRule (part : Section) : (sectionRule part).Isolated () () := by
  have items : (part.items.mapM itemNode).Isolated () () := by
    induction part.items with
    | nil => exact WalkM.isolated_pure _
    | cons item items ih =>
      rw [List.mapM_cons]
      exact (isolated_itemNode item).bind fun _ => ih.bind fun _ => WalkM.isolated_pure _
  exact items.bind fun _ => WalkM.isolated_pure _

/-! ## What sections are read as -/

/-- What an item is read as. -/
inductive ItemRead : Item → Node → Prop
  /-- Lines of text. -/
  | text (block : TextBlock) : ItemRead (.text block) (.leafOf .paragraph block.text block.span)
  /-- A link. -/
  | link (link : ContextLink) : ItemRead (.link link) (linkNode link)
  /-- A fenced block of statements. -/
  | statements {block : FencedBlock} {file : String} {code read rest : List Token}
      {nodes : List Node}
      (lexed : codeTokens .pseudo file ⟨block.firstLine, 1⟩ block.text = .ok code)
      (seen : WalkM.seen code = read ++ rest)
      (built : Built .pseudo NodeKind.statements read nodes) :
      ItemRead (.fenced block) (.spanning .pseudoCodeBlock nodes (some block.span))
  /-- A fenced block of formulas. -/
  | formulas (block : FencedBlock) : ItemRead (.fenced block)
      (.spanning .mathBlock (lineLeaves .latexLine block) (some block.span))
  /-- Any other fenced block. -/
  | code (block : FencedBlock) : ItemRead (.fenced block) (codeNode block)

/-- What a fenced block is read as: the statements of its code, its lines as formulas, or code. -/
theorem fencedNode_cases {block : FencedBlock} (reads : fencedNode block state = .ok node final) :
    (∃ code read rest nodes,
        codeTokens .pseudo state.session.file ⟨block.firstLine, 1⟩ block.text = .ok code ∧
        WalkM.seen code = read ++ rest ∧ Built .pseudo NodeKind.statements read nodes ∧
        node = .spanning .pseudoCodeBlock nodes (some block.span)) ∨
      node = .spanning .mathBlock (lineLeaves .latexLine block) (some block.span) ∨
      node = codeNode block := by
  unfold fencedNode at reads
  split at reads
  · obtain ⟨file, _, asks, onward⟩ := WalkM.exists_of_bind reads
    cases asks
    obtain ⟨code, _, lexes, onward⟩ := WalkM.exists_of_bind onward
    obtain ⟨nodes, _, runs, last⟩ := WalkM.exists_of_bind onward
    cases last
    obtain ⟨lexed, _⟩ := WalkM.exists_of_ofExcept lexes
    obtain ⟨read, rest, seen, built⟩ :=
      WalkM.exists_of_runRule Statement.gives_all (endsInput_code lexed) runs
    exact .inl ⟨code, read, rest, nodes, lexed, seen, built, rfl⟩
  split at reads
  · cases reads
    exact .inr (.inl rfl)
  · cases reads
    exact .inr (.inr rfl)

theorem itemRead_of_itemNode (reads : itemNode item state = .ok node final) :
    ItemRead item node := by
  cases item with
  | text block =>
    cases reads
    exact .text block
  | link link =>
    cases reads
    exact .link link
  | fenced block =>
    rcases fencedNode_cases reads with ⟨_, _, _, _, lexed, seen, built, rfl⟩ | rfl | rfl
    · exact .statements lexed seen built
    · exact .formulas block
    · exact .code block

/-- A section is read as its heading and its items. -/
theorem exists_of_sectionRule (reads : sectionRule part state = .ok nodes final) :
    ∃ items, nodes = (part.heading.map headingNode).toList ++ items ∧
      List.Forall₂ ItemRead part.items items := by
  obtain ⟨items, _, runs, reads⟩ := WalkM.exists_of_bind reads
  cases reads
  refine ⟨items, rfl, (WalkM.forall₂_of_mapM runs).imp ?_⟩
  rintro item node ⟨before, behind, reads⟩
  exact itemRead_of_itemNode reads

/-! ## Nodes of sections conform -/

/-- A leaf is a part. -/
theorem isPart_leafOf {kind : NodeKind} {kinds : List NodeKind} (texts : kind.carriesText = true)
    (prescribes : kind.contents .pseudo = [[]]) (member : kind ∈ kinds) (text : String)
    (span : Span) : (Node.leafOf kind text span).IsPart .pseudo kinds :=
  ⟨Node.conforms_leafOf texts prescribes text span, member, rfl⟩

/-- Lines of a fenced block are leaves. -/
theorem isPart_of_mem_lineLeaves {kind : NodeKind} (block : FencedBlock)
    (texts : kind.carriesText = true) (prescribes : kind.contents .pseudo = [[]]) :
    ∀ node ∈ lineLeaves kind block, node.IsPart .pseudo [kind] := by
  intro node member
  obtain ⟨line, _, rfl⟩ := List.mem_map.mp member
  exact isPart_leafOf texts prescribes (List.mem_singleton_self kind) _ _

/-- A node whose children are parts of the kinds that it may hold is part of a document. -/
theorem isPart_of_holds {kind : NodeKind} {children : List Node} {span : Option Span}
    (member : kind ∈ NodeKind.documentParts) (holds : kind.Holds .pseudo none children)
    (conform : ∀ child ∈ children, child.conforms .pseudo = true) :
    (Node.spanning kind children span).IsPart .pseudo NodeKind.documentParts :=
  ⟨holds.conforms conform, member, rfl⟩

/-- The node of a link holds a target and maybe a description. -/
theorem isPart_linkNode (link : ContextLink) :
    (linkNode link).IsPart .pseudo NodeKind.documentParts := by
  have target : (Node.leaf .linkTarget link.target).IsPart .pseudo [.linkTarget] :=
    isPart_leafOf rfl rfl (List.mem_singleton_self _) _ _
  have description : ∀ node ∈ link.description.map (Node.leaf .linkDescription),
      node.IsPart .pseudo [.linkDescription] := by
    intro node member
    obtain ⟨token, _, rfl⟩ := Option.map_eq_some_iff.mp member
    exact isPart_leafOf rfl rfl (List.mem_singleton_self _) _ _
  have filled : Slot.fill [.optional [.linkDescription]]
      ((link.description.map (Node.leaf .linkDescription)).toList ++ []) = true :=
    Slot.fill_toList rfl (fun node member => (description node member).admits) rfl rfl
  rw [List.append_nil] at filled
  refine isPart_of_holds (by decide)
    (.first rfl (Slot.fill_one rfl target.admits filled) rfl rfl) ?_
  refine List.forall_mem_cons.mpr ⟨target.conforms, fun node member => ?_⟩
  exact (description node (Option.mem_toList.mp member)).conforms

/-- The node of a block of other code holds lines behind a language, if there is one. -/
theorem isPart_codeNode (block : FencedBlock) :
    (codeNode block).IsPart .pseudo NodeKind.documentParts := by
  have lines : ∀ node ∈ lineLeaves .codeLine block, node.IsPart .pseudo [.codeLine] :=
    isPart_of_mem_lineLeaves block rfl rfl
  have filled : Slot.fill [.any [.codeLine]] (lineLeaves .codeLine block) = true :=
    Slot.fill_any rfl fun node member => (lines node member).admits
  have language : (Node.leafOf .languageIdentifier block.language block.opener.span).IsPart .pseudo
      [.languageIdentifier] :=
    isPart_leafOf rfl rfl (List.mem_singleton_self _) _ _
  unfold codeNode
  split
  · have missing : Slot.admitsFirst (.optional [.languageIdentifier]) (lineLeaves .codeLine block) =
        false := Node.admitsFirst_of_isPart lines (by decide)
    exact isPart_of_holds (by decide) (.first rfl (Slot.fill_skip rfl missing filled) rfl rfl)
      fun node member => (lines node member).conforms
  · exact isPart_of_holds (by decide)
      (.first rfl (Slot.fill_optional rfl language.admits filled) rfl rfl)
      (List.forall_mem_cons.mpr
        ⟨language.conforms, fun node member => (lines node member).conforms⟩)

theorem ItemRead.isPart (read : ItemRead item node) :
    node.IsPart .pseudo NodeKind.documentParts := by
  cases read with
  | text block => exact isPart_leafOf rfl rfl (by decide) _ _
  | link link => exact isPart_linkNode link
  | statements _ _ built =>
    exact isPart_of_holds (by decide) (.first rfl (Slot.fill_any rfl built.admits) rfl rfl)
      built.conform
  | formulas block =>
    have lines : ∀ node ∈ lineLeaves .latexLine block, node.IsPart .pseudo [.latexLine] :=
      isPart_of_mem_lineLeaves block rfl rfl
    have filled : Slot.fill [.any [.latexLine]] (lineLeaves .latexLine block) = true :=
      Slot.fill_any rfl fun node member => (lines node member).admits
    exact isPart_of_holds (by decide) (.first rfl filled rfl rfl)
      fun node member => (lines node member).conforms
  | code block => exact isPart_codeNode block

/-- The nodes of a section are parts of a document. -/
theorem isPart_of_sectionRule (reads : sectionRule part state = .ok nodes final) :
    ∀ node ∈ nodes, node.IsPart .pseudo NodeKind.documentParts := by
  obtain ⟨items, rfl, read⟩ := exists_of_sectionRule reads
  intro node member
  rcases List.mem_append.mp member with title | inItems
  · obtain ⟨heading, _, rfl⟩ := Option.map_eq_some_iff.mp (Option.mem_toList.mp title)
    exact isPart_leafOf rfl rfl (by decide) _ _
  · obtain ⟨item, _, read⟩ := exists_of_mem_forall₂ read inItems
    exact read.isPart

/-! ## Nodes of sections on the text -/

variable {document own chars : List Char} {start : Position}

/-- The lines of a fenced block that are not blank become leaves on them. -/
theorem along_lineLeaves {kind : NodeKind} (plain : kind.isPlain = true)
    (along : Along (CodeLineOn document) start chars block.lines) :
    Along (Node.StandsOn document) start chars (lineLeaves kind block) := by
  refine (along.sublist List.filter_sublist).map fun member here => ?_
  have copies := here (by simpa using (List.mem_filter.mp member).2)
  exact Node.standsOn_plain plain copies.value copies.covers copies.segment copies.noFeed

/-- The statements of a fenced block stand on its lines. -/
theorem along_statements {file : String} {code read rest : List Token}
    (lexed : codeTokens .pseudo file start block.text = .ok code)
    (seen : WalkM.seen code = read ++ rest) (stand : Stand .pseudo read nodes)
    (rows : chars = closedRows (block.lines.map (·.value.toList)))
    (segment : Segment document start chars) :
    Along (Node.StandsOn document) start chars nodes := by
  -- the code is the lines without the line feed behind the last one
  have text : block.text.toList <+: chars := by
    rw [FencedBlock.text, String.toList_intercalate, rows, List.map_map]
    exact intercalate_isPrefix _
  obtain ⟨behind, rfl⟩ := text
  have reads : CodeRead file start block.text.toList code :=
    codeRead_of_codeTokensFrom plain_keywords lexed
  exact (stand.placed_code reads seen segment.left).extend behind

/-- A node around what stands on the opening fence and on the lines of a fenced block stands on
the block. -/
theorem standsOn_fenced {kind : NodeKind} {front inner : List Node}
    (stands : block.StandsOn document start own) (segment : Segment document start own)
    (mute : kind.isQuoted = false)
    (opening : ∀ {opener}, block.opener.span.Covers start opener →
      Along (Node.StandsOn document) start opener front)
    (lines : ∀ {body}, body = closedRows (block.lines.map (·.value.toList)) →
      Segment document ⟨block.firstLine, 1⟩ body →
      Along (CodeLineOn document) ⟨block.firstLine, 1⟩ body block.lines →
      Along (Node.StandsOn document) ⟨block.firstLine, 1⟩ body inner) :
    (Node.spanning kind (front ++ inner) (some block.span)).StandsOn document start own := by
  obtain ⟨_, rest, rfl, opens⟩ := stands.holds
  obtain ⟨opener, gap, body, rfl, covers, first, rows, along⟩ := opens.opens
  -- the lines start on the row behind the opening fence
  have below : Segment document ⟨block.firstLine, 1⟩ body := by
    rw [← first]
    exact segment.left.right.right
  have behind := lines rows below along
  rw [← first] at behind
  exact Node.standsOn_around (((opening covers).append (.skip behind)).extend rest) rfl
    stands.covers mute

/-- The node of a link stands on the link. -/
theorem standsOn_linkNode {link : ContextLink} (stands : link.StandsOn document start own) :
    (linkNode link).StandsOn document start own := by
  obtain ⟨front, target, rest, rfl, covers, description⟩ := stands.parts
  have there : Along (Node.StandsOn document) ((start.after front).after target) rest
      (link.description.map (Node.leaf .linkDescription)).toList := by
    rw [Option.toList_map]
    exact description.map fun _ copies =>
      Node.standsOn_plain rfl copies.value copies.covers copies.segment copies.noFeed
  exact Node.standsOn_around (.skip (.item (Node.standsOn_leafOf rfl _ covers) there)) rfl
    stands.covers rfl

/-- What an item is read as stands on the item. -/
theorem ItemRead.standsOn (read : ItemRead item node) (stands : item.StandsOn document start own)
    (segment : Segment document start own) : node.StandsOn document start own := by
  cases read with
  | text block => exact Node.standsOn_leafOf rfl _ stands.covers
  | link link => exact standsOn_linkNode stands
  | statements lexed seen built =>
    exact standsOn_fenced stands segment rfl (fun _ => .done)
      fun rows segment _ => along_statements lexed seen built.stands rows segment
  | formulas block =>
    exact standsOn_fenced stands segment rfl (fun _ => .done) fun _ _ => along_lineLeaves rfl
  | code block =>
    refine standsOn_fenced stands segment rfl (fun covers => ?_) fun _ _ => along_lineLeaves rfl
    split
    · exact .done
    · exact .single (Node.standsOn_leafOf rfl _ covers)

/-- The nodes of a section that is not at fault stand along the text of the section. -/
theorem along_of_sectionRule (sound : part.failure = none)
    (stands : part.StandsOn document start own) (segment : Segment document start own)
    (reads : sectionRule part state = .ok nodes final) :
    Along (Node.StandsOn document) start own nodes := by
  obtain ⟨items, rfl, read⟩ := exists_of_sectionRule reads
  obtain ⟨front, back, rfl, headings, along⟩ := stands sound
  refine Along.append ?_ ?_
  · rw [Option.toList_map]
    exact headings.map fun _ here => Node.standsOn_leafOf rfl _ here.covers
  · exact (along.inSegment segment.right).images read fun read here => read.standsOn here.2 here.1

end Pseudo

end DocGrammar
