import DocGrammar.Proofs.Documents.Placed
import DocGrammar.Proofs.Documents.Walked
import DocGrammar.Proofs.Specs.Built
import DocGrammar.Proofs.Specs.Sections
import DocGrammar.Proofs.Trees.Placed

/-! # Where sections of specs documents stand

The lines of a body are read one by one, and their tokens come to stand along the body. A section
is read as a node that conforms to the schema and stands on its heading and its body, and a feature
is read only before every other section.

* **`Specs.CodeAlong`** — the tokens of some lines stand along them.
* **`Specs.SectionRead`** — what a section is read as.
* **`Specs.exists_of_walked`** — at most one feature, before every other section.
* **`Specs.along_of_sectionRead`** — the nodes of a section stand along its text. -/

namespace DocGrammar

namespace Specs

variable {document own chars : List Char} {start : Position} {code more : List Token}
  {file : String} {line : Token}

/-! ## Lines of code -/

/-- Tokens stand along some characters. No number stands behind a minus sign on an earlier line. -/
structure CodeAlong (document : List Char) (start : Position) (chars : List Char)
    (code : List Token) : Prop where
  /-- They stand along the characters, comments left out. -/
  along : Along (CodeOn document) start chars (WalkM.seen code)
  /-- A number behind a minus sign stands on its line. -/
  chain : (WalkM.seen code).IsChain (SignedOn document)
  /-- They do not end with a minus sign. -/
  closed : ∀ last ∈ (WalkM.seen code).getLast?, last.kind ≠ .minus

namespace CodeAlong

theorem none : CodeAlong document start chars [] :=
  ⟨.done, .nil, fun _ member => absurd member (Option.not_mem_none _)⟩

theorem skip {gap : List Char} (stands : CodeAlong document (start.after gap) chars code) :
    CodeAlong document start (gap ++ chars) code :=
  ⟨.skip stands.along, stands.chain, stands.closed⟩

theorem append (stands : CodeAlong document start own code)
    (behind : CodeAlong document (start.after own) chars more) :
    CodeAlong document start (own ++ chars) (code ++ more) := by
  have split : WalkM.seen (code ++ more) = WalkM.seen code ++ WalkM.seen more :=
    List.filter_append ..
  refine ⟨?_, ?_, ?_⟩
  · rw [split]
    exact stands.along.append behind.along
  · rw [split]
    -- where the two meet, no sign stands
    refine stands.chain.append behind.chain fun last isLast next _ minus => ?_
    exact absurd minus (stands.closed last isLast)
  · rw [split, List.getLast?_append]
    intro last isLast
    rcases Option.or_eq_some_iff.mp isLast with later | ⟨_, here⟩
    · exact behind.closed last later
    · exact stands.closed last here

/-- The end of a line or of the input needs no characters. -/
theorem hollow {token : Token} (hollow : token.kind.isSolid = false) :
    CodeAlong document start [] [token] := by
  have seen : WalkM.seen [token] = [token] := by
    refine WalkM.seen_eq_self fun other member comment => ?_
    rw [List.mem_singleton.mp member] at comment
    rw [comment] at hollow
    cases hollow
  refine ⟨?_, ?_, ?_⟩
  · rw [seen]
    refine .single fun solid => ?_
    rw [hollow] at solid
    cases solid
  · rw [seen]
    exact .singleton _
  · rw [seen]
    rintro _ ⟨⟩ minus
    have minus : token.kind = .minus := minus
    rw [minus] at hollow
    cases hollow

/-- What is read of things along some characters stands along them. -/
theorem flatten {α : Type} {on : Position → List Char → α → Prop} {items : List α}
    {makes : α → List Token → Prop} {codes : List (List Token)} (along : Along on start chars items)
    (made : List.Forall₂ makes items codes)
    (each : ∀ {start own item code}, makes item code → on start own item →
      CodeAlong document start own code) :
    CodeAlong document start chars codes.flatten := by
  induction along generalizing codes with
  | done =>
    cases made
    exact .none
  | skip _ ih => exact .skip (ih made)
  | item here _ ih =>
    cases made with
    | cons first others => exact (each first here).append (ih others)

end CodeAlong

/-- Tokens that end with the input, without the end. -/
theorem exists_of_endsInput (ends : EndsInput code) :
    ∃ last, code = code.filter (·.kind ≠ .endOfInput) ++ [last] ∧ last.kind = .endOfInput := by
  induction code with
  | nil => exact ends.elim
  | cons token others ih =>
    cases others with
    | nil =>
      have last : token.kind = .endOfInput := ends
      exact ⟨token, by simp [last], last⟩
    | cons next more =>
      obtain ⟨last, split, kind⟩ := ih ends.2
      refine ⟨last, ?_, kind⟩
      rw [List.filter_cons_of_pos (p := fun token : Token => decide (token.kind ≠ .endOfInput))
        (decide_eq_true ends.1), List.cons_append, ← split]

/-- The keywords of specs documents are their own characters. -/
theorem specs_keywords : KeywordTable.specs.isVerbatim = true := rfl

/-- The tokens of a line stand along the line. -/
theorem codeAlong_lineCode (copies : line.Copies document start own)
    (reads : lineCode file line = .ok code) : CodeAlong document start own code := by
  obtain ⟨tokens, lexed, whole⟩ := exists_of_bind_ok reads
  cases whole
  have read := codeRead_of_codeTokensFrom specs_keywords lexed
  rw [show CodeState.position _ = _ from copies.covers.starts, copies.value] at read
  -- leaving out comments and leaving out the end of the input can be done in either order
  have seen : ∀ newline : Token, newline.kind = .newline →
      WalkM.seen (tokens.filter (·.kind ≠ .endOfInput) ++ [newline]) =
        (WalkM.seen tokens).filter (·.kind ≠ .endOfInput) ++ [newline] := by
    intro newline kind
    unfold WalkM.seen
    rw [List.filter_append, List.filter_cons_of_pos (by rw [kind]; rfl), List.filter_filter,
      List.filter_filter]
    simp only [Bool.and_comm]
    rfl
  obtain ⟨last, split, _⟩ := exists_of_endsInput read.endsInput
  have along := read.along_seen copies.segment
  have chain := (read.isChain_signedOn copies.noFeed copies.segment).1
  rw [split] at along chain
  refine ⟨?_, ?_, ?_⟩
  · rw [seen _ rfl, ← List.append_nil own]
    exact (along.sublist (List.sublist_append_left _ _)).append (.hollow nofun .done)
  · rw [seen _ rfl]
    refine chain.left_of_append.append (.singleton _) ?_
    -- the end of the line is no number
    rintro _ _ _ ⟨⟩ _ ⟨⟩
  · rw [seen _ rfl, List.getLast?_concat]
    rintro _ ⟨⟩
    exact TokenKind.noConfusion

/-- The tokens of an item stand along the item. -/
theorem codeAlong_itemCode {item : Item} (stands : item.StandsOn document start own)
    (reads : itemCode file item = .ok code) : CodeAlong document start own code := by
  cases item with
  | fenced block =>
    cases reads
    exact .none
  | link link => cases reads
  | text block =>
    obtain ⟨codes, read, whole⟩ := exists_of_bind_ok reads
    cases whole
    exact .flatten stands.lines (forall₂_of_mapM_ok read) fun reads copies =>
      codeAlong_lineCode copies reads

/-- The tokens of a body stand along its items. -/
theorem codeAlong_bodyCode {heading : Heading} {items : List Item}
    (stands : Along (Item.StandsOn document) start chars items)
    (reads : bodyCode file heading items = .ok code) : CodeAlong document start chars code := by
  obtain ⟨codes, read, whole⟩ := exists_of_bind_ok reads
  cases whole
  have along : CodeAlong document start chars codes.flatten :=
    .flatten stands (forall₂_of_mapM_ok read) fun reads stands => codeAlong_itemCode stands reads
  rw [← List.append_nil chars]
  exact along.append (.hollow rfl)

/-! ## What sections are read as -/

variable {opened : Bool} {part : Section} {heading : Heading} {tail : List Char}
  {state final : WalkState Bool} {node : Node} {nodes : List Node}

/-- The node of a section of level two with the given body. -/
def bodyNode (heading : Heading) (body : Node) : Node :=
  .spanning body.kind body.children (some (heading.span.through (body.span.getD heading.span)))

/-- What a section is read as, where `opened` tells whether a section was opened before it. -/
inductive SectionRead (opened : Bool) (part : Section) : List Node → Prop
  /-- A preamble without content. -/
  | preamble : SectionRead opened part []
  /-- A feature before every other section. -/
  | feature {heading : Heading} {tail : List Char} (headed : part.heading = some heading)
      (titled : featureTail? heading.title.value = some tail) (named : trim tail ≠ [])
      (first : opened = false) (opens : opens part = true) :
      SectionRead opened part [featureNode heading tail]
  /-- A section of level two. -/
  | body {heading : Heading} {kind : SpecSection} {file : String} {code read rest : List Token}
      {body : Node} (headed : part.heading = some heading)
      (lexed : bodyCode file heading part.items = .ok code)
      (seen : WalkM.seen code = read ++ rest) (isBody : kind.IsBody read body)
      (opens : opens part = true) : SectionRead opened part [bodyNode heading body]

/-- A feature that is read is valid, and the walk goes on as before. -/
theorem feature_ok {items : List Item} (reads : feature heading items tail state = .ok node final) :
    ValidFeature tail items ∧ node = featureNode heading tail := by
  by_cases valid : ValidFeature tail items
  · rw [feature_of_valid valid] at reads
    cases reads
    exact ⟨valid, rfl⟩
  · obtain ⟨cause, span, fails⟩ := exists_feature_of_invalid heading valid state
    rw [fails] at reads
    cases reads

/-- The rule of a section that is read has read the tokens of its body. -/
theorem exists_of_bodySection {kind : SpecSection} {items : List Item}
    (reads : bodySection kind heading items state = .ok node final) :
    ∃ code body later, bodyCode state.session.file heading items = .ok code ∧
      WalkM.runRule kind.body code state = .ok body later ∧ node = bodyNode heading body := by
  obtain ⟨file, _, names, onward⟩ := WalkM.exists_of_bind reads
  cases names
  obtain ⟨code, _, lexes, onward⟩ := WalkM.exists_of_bind onward
  obtain ⟨body, _, runs, last⟩ := WalkM.exists_of_bind onward
  cases last
  obtain ⟨lexed, rfl⟩ := WalkM.exists_of_ofExcept lexes
  exact ⟨code, body, _, lexed, runs, rfl⟩

/-- A section of level two that is read has a body. -/
theorem bodySection_ok {kind : SpecSection} {items : List Item}
    (reads : bodySection kind heading items state = .ok node final) :
    ∃ file code read rest body, bodyCode file heading items = .ok code ∧
      WalkM.seen code = read ++ rest ∧ kind.IsBody read body ∧ node = bodyNode heading body := by
  obtain ⟨code, body, _, lexed, runs, whole⟩ := exists_of_bodySection reads
  obtain ⟨read, rest, seen, isBody⟩ :=
    WalkM.exists_of_runRule kind.gives_body (endsInput_bodyCode lexed) runs
  exact ⟨_, code, read, rest, body, lexed, seen, isBody, whole⟩

theorem sectionRead_of_sectionRule (reads : sectionRule part state = .ok nodes final) :
    SectionRead state.memory part nodes := by
  obtain ⟨title, items, failure⟩ := part
  cases title with
  | none =>
    obtain rfl := nodes_of_preamble reads
    exact .preamble
  | some heading =>
    rcases headedSection_cases reads with ⟨tail, titled, level, first, runs⟩ |
      ⟨kind, titled, known, level, runs⟩
    · obtain ⟨node, _, featured, last⟩ := WalkM.exists_of_bind runs
      cases last
      obtain ⟨valid, rfl⟩ := feature_ok featured
      refine .feature rfl titled valid.1 first ?_
      simp only [opens, titled, level, decide_true]
    · obtain ⟨node, _, bodied, last⟩ := WalkM.exists_of_bind runs
      cases last
      obtain ⟨file, code, read, rest, body, lexed, seen, isBody, rfl⟩ := bodySection_ok bodied
      refine .body rfl lexed seen isBody ?_
      simp only [opens, titled, known, level, Option.isSome_some, decide_true, Bool.and_self]

/-! ## Nodes of sections conform -/

/-- The node of a feature holds its name. -/
theorem isPart_featureNode (heading : Heading) (tail : List Char) :
    (featureNode heading tail).IsPart .specs [.featureSection] := by
  have name : (nameNode heading.title (String.ofList (trim tail))).IsPart .specs [.featureName] :=
    ⟨Node.conforms_leafOf rfl rfl _ _, List.mem_singleton_self _, rfl⟩
  have holds : NodeKind.featureSection.Holds .specs none
      [nameNode heading.title (String.ofList (trim tail))] :=
    .first rfl (Slot.fill_one rfl name.admits rfl) rfl rfl
  exact ⟨holds.conforms (List.forall_mem_singleton.mpr name.conforms),
    List.mem_singleton_self _, rfl⟩

/-- The node of a section of level two holds the lines of the body. -/
theorem isPart_bodyNode {kind : SpecSection} {read : List Token} {body : Node}
    (isBody : kind.IsBody read body) (heading : Heading) :
    (bodyNode heading body).IsPart .specs NodeKind.bodySections := by
  have same : body.kind = kind.nodeKind := by
    rw [isBody.whole]
    rfl
  refine ⟨?_, ?_, rfl⟩
  · rw [bodyNode, same]
    exact isBody.holds.conforms isBody.sound.conform
  · show body.kind ∈ NodeKind.bodySections
    rw [same]
    cases kind <;> decide

/-- A walk over sections yields at most one feature, before every other section, and none behind a
section that was opened. -/
theorem exists_of_walked {parts : List Section} {diagnostics : List Diagnostic}
    (walked : Walked sectionRule (fun opened part => opened || opens part) opened parts nodes
      diagnostics) :
    ∃ (feature : Option Node) (bodies : List Node), nodes = feature.toList ++ bodies ∧
      (∀ node ∈ feature, opened = false ∧ node.IsPart .specs [.featureSection]) ∧
      ∀ node ∈ bodies, node.IsPart .specs NodeKind.bodySections := by
  induction walked with
  | nil => exact ⟨none, [], rfl, nofun, nofun⟩
  | @read session opened part others nodes more diagnostics next sound reads _ ih =>
    obtain ⟨feature, bodies, rfl, first, parts⟩ := ih
    -- behind a section that is opened there is no feature
    have alone : opens part = true → feature = none := by
      intro opens
      refine Option.eq_none_iff_forall_ne_some.mpr fun node isFeature => ?_
      have later := (first node isFeature).1
      rw [opens, Bool.or_true] at later
      cases later
    cases sectionRead_of_sectionRule reads with
    | preamble =>
      refine ⟨feature, bodies, rfl, fun node member => ?_, parts⟩
      obtain ⟨later, isPart⟩ := first node member
      exact ⟨(Bool.or_eq_false_iff.mp later).1, isPart⟩
    | feature _ _ _ unopened opens =>
      cases alone opens
      exact ⟨some _, bodies, rfl, fun node member => Option.some.inj member ▸
        ⟨unopened, isPart_featureNode _ _⟩, parts⟩
    | body headed lexed seen isBody opens =>
      cases alone opens
      exact ⟨none, _ :: bodies, rfl, nofun, List.forall_mem_cons.mpr
        ⟨isPart_bodyNode isBody _, parts⟩⟩
  | @dropped opened later part below others more diagnostic diagnostics _ remembers _ ih =>
    obtain ⟨feature, bodies, rfl, first, parts⟩ := ih
    refine ⟨feature, bodies, rfl, fun node member => ?_, parts⟩
    obtain ⟨unopened, isPart⟩ := first node member
    rcases remembers with rfl | rfl
    · exact ⟨unopened, isPart⟩
    · exact ⟨(Bool.or_eq_false_iff.mp unopened).1, isPart⟩

/-! ## Nodes of sections on the text -/

/-- What stands behind the feature mark in a title. -/
theorem eq_of_featureTail? {title : String} (titled : featureTail? title = some tail) :
    title.toList = featureMark.toList ++ tail :=
  List.isPrefixOf?_eq_some_iff_append_eq.mp titled |>.symm

/-- The name of a feature stands behind the mark in the title. -/
theorem standsOn_nameNode {title : Token} (copies : title.Copies document start own)
    (titled : featureTail? title.value = some tail) (named : trim tail ≠ []) :
    ∃ before behind, own = before ++ (trim tail ++ behind) ∧
      (nameNode title (String.ofList (trim tail))).StandsOn document (start.after before)
        (trim tail) := by
  obtain ⟨before, behind, split, found⟩ := exists_offsetOf? (trim_isInfix tail)
  have whole : title.value.toList = (featureMark.toList ++ before) ++ (trim tail ++ behind) := by
    rw [eq_of_featureTail? titled, List.append_assoc, ← split]
  have cut := copies.value.symm.trans whole
  have noFeed := copies.noFeed
  rw [cut, ← List.append_assoc] at noFeed
  have line : '\n' ∉ (featureMark.toList ++ before) ++ trim tail :=
    fun member => noFeed (List.mem_append_left behind member)
  have segment := copies.segment
  rw [cut] at segment
  have covers := Span.Covers.piece title.span.file start line named
  have behindMark : title.value.toList.drop featureMark.length = tail := by
    rw [eq_of_featureTail? titled]
    exact List.drop_left
  -- the column counts the mark and the white space behind it
  have column : title.column + ((featureMark.length + before.length : Nat) : Int) =
      start.column + (featureMark.toList ++ before).length := by
    rw [Token.column, copies.covers.starts, List.length_append]
    rfl
  have node : nameNode title (String.ofList (trim tail)) = .leafOf .featureName
      (String.ofList (trim tail)) ⟨title.span.file,
        ⟨start.line, start.column + (featureMark.toList ++ before).length⟩,
        ⟨start.line, start.column + (featureMark.toList ++ before).length +
          (trim tail).length - 1⟩⟩ := by
    unfold nameNode
    simp only [String.toList_ofList, behindMark, found, Option.getD_some, column, Token.line,
      copies.covers.starts, String.length_ofList]
  rw [node]
  exact ⟨featureMark.toList ++ before, behind, cut, Node.standsOn_plain rfl String.toList_ofList
    covers segment.part fun member => line (List.mem_append_right _ member)⟩

/-- The node of a feature stands on the heading. -/
theorem standsOn_featureNode (stands : heading.StandsOn document start own)
    (titled : featureTail? heading.title.value = some tail) (named : trim tail ≠ []) :
    (featureNode heading tail).StandsOn document start own := by
  obtain ⟨gap, title, rfl, copies⟩ := stands.title
  obtain ⟨before, behind, rfl, name⟩ := standsOn_nameNode copies titled named
  exact Node.standsOn_around (.skip (.skip ((Along.single name).extend behind))) rfl
    stands.covers rfl

/-- The node of a section of level two stands on the heading and, if it has lines, on them. -/
theorem standsOn_bodyNode {kind : SpecSection} {read : List Token} {body : Node}
    (isBody : kind.IsBody read body) (stands : heading.StandsOn document start own)
    (along : Along (Node.StandsOn document) (start.after own) chars body.children) :
    ∃ front back, own ++ chars = front ++ back ∧
      (bodyNode heading body).StandsOn document start front := by
  have mute : (bodyNode heading body).kind.isQuoted = false := by
    show body.kind.isQuoted = false
    rw [isBody.whole]
    exact NodeKind.isQuoted_of_branches isBody.holds.branches
  have extent : body.span = Node.extent body.children := by
    rw [isBody.whole]
    rfl
  by_cases empty : body.children = []
  · -- without lines the node spans its heading alone
    have spans : (bodyNode heading body).span = some heading.span := by
      show some (heading.span.through (body.span.getD heading.span)) = _
      rw [extent, empty]
      rfl
    refine ⟨own, chars, rfl, Node.standsOn_around ?_ spans stands.covers mute⟩
    show Along _ _ _ body.children
    rw [empty]
    exact .done
  · -- with lines it spans from the heading to the last of them
    have starts := List.head?_eq_some_head empty
    have ends := List.getLast?_eq_some_getLast empty
    obtain ⟨gap, front, last, behind, first, rfl, here, there, inner⟩ :=
      along.exists_frame starts ends
    obtain ⟨span, spans, _⟩ := here.covers
    obtain ⟨span', spans', covers'⟩ := there.covers
    have whole :
        (bodyNode heading body).span = some (heading.span.through (span.through span')) := by
      show some (heading.span.through (body.span.getD heading.span)) = _
      rw [extent, Stand.extent_of_ends starts ends spans spans']
      rfl
    have reaches :
        start.after (own ++ gap ++ front) = ((start.after own).after gap).after front := by
      simp only [Position.after_append]
    have covers : (heading.span.through (span.through span')).Covers start
        ((own ++ gap ++ front) ++ last) := stands.covers.through covers' reaches
    refine ⟨(own ++ gap ++ front) ++ last, behind, by simp only [List.append_assoc],
      Node.standsOn_around ?_ whole covers mute⟩
    rw [List.append_assoc, List.append_assoc]
    exact .skip (.skip inner)

/-- The nodes of a section that is not at fault stand along the text of the section. -/
theorem along_of_sectionRead (read : SectionRead opened part nodes) (sound : part.failure = none)
    (stands : part.StandsOn document start own) :
    Along (Node.StandsOn document) start own nodes := by
  obtain ⟨front, back, rfl, headings, items⟩ := stands sound
  cases read with
  | preamble => exact .done
  | feature headed titled named =>
    rw [headed] at headings
    obtain ⟨gap, own, rest, rfl, here, _⟩ := headings.exists_head
    exact .extend (.skip ((Along.single (standsOn_featureNode here titled named)).extend rest)) back
  | body headed lexed seen isBody =>
    rw [headed] at headings
    obtain ⟨gap, own, rest, rfl, here, _⟩ := headings.exists_head
    have code := codeAlong_bodyCode items lexed
    have along := code.along
    have chain := code.chain
    rw [seen] at along chain
    have children := (isBody.sound.stands.extend _).placed along fun _ => chain
    simp only [Position.after_append] at children
    obtain ⟨front, behind, split, node⟩ := standsOn_bodyNode isBody here (.skip children)
    rw [List.append_assoc, List.append_assoc, split]
    exact .skip ((Along.single node).extend behind)

end Specs

end DocGrammar
