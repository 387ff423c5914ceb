import DocGrammar.Proofs.Documents.Read
import DocGrammar.Proofs.Documents.Walked
import DocGrammar.Proofs.Trees.Built
import DocGrammar.Proofs.Trees.Placed

/-! # Roots of document trees

The root of a tree holds the directive of the document and what its sections are read as. It spans
the whole document, so what stands on the text stands within it.

* **`Dialect.HoldsBody`** — the nodes that may stand in a root behind the directive.
* **`Document.conforms_root`** — a root over such nodes conforms to the schema.
* **`Walked.along`** — what a walk reads stands along the text of its sections.
* **`Document.StandsOn.sound_root`** — every node of a tree over a text is sound. -/

namespace DocGrammar

variable {document own chars : List Char} {start : Position} {dialect : Dialect}

/-! ## The schema of roots -/

/-- What the root of a tree holds behind its directive. -/
def Dialect.bodySlots : Dialect → List Slot
  | .specs => [.optional [.featureSection], .any NodeKind.bodySections]
  | .pseudo => [.any NodeKind.documentParts]

/-- Some nodes may stand in the root of a tree behind its directive. -/
structure Dialect.HoldsBody (dialect : Dialect) (nodes : List Node) : Prop where
  /-- They are what a root holds. -/
  fills : Slot.fill dialect.bodySlots nodes = true
  /-- They conform. -/
  conform : ∀ node ∈ nodes, node.conforms dialect = true
  /-- The first of them is no directive. -/
  undirected : Slot.admitsFirst (.optional [.shebang]) nodes = false

/-- The node of a directive holds the name of the grammar. -/
theorem Directive.isPart_node (directive : Directive) :
    directive.node.IsPart dialect [.shebang] := by
  have prescribes : NodeKind.grammarName.contents dialect = [[]] := NodeKind.contents_eq rfl rfl
  have contents : NodeKind.shebang.contents dialect = [[.one [.grammarName]]] :=
    NodeKind.contents_eq rfl rfl
  have holds : NodeKind.shebang.Holds dialect none directive.node.children :=
    .first contents rfl rfl rfl
  exact ⟨holds.conforms (List.forall_mem_singleton.mpr (Node.conforms_leafOf rfl prescribes _ _)),
    List.mem_singleton_self _, rfl⟩

/-- The root over nodes that it may hold conforms. -/
theorem Document.conforms_root (source : Document) {nodes : List Node}
    (holds : dialect.HoldsBody nodes) : (source.root nodes).conforms dialect = true := by
  have directive : ∀ node ∈ source.directive.map Directive.node,
      node.IsPart dialect [.shebang] := by
    intro node member
    obtain ⟨directive, _, rfl⟩ := Option.map_eq_some_iff.mp member
    exact directive.isPart_node
  have filled : Slot.fill (.optional [.shebang] :: dialect.bodySlots)
      ((source.directive.map Directive.node).toList ++ nodes) = true :=
    Slot.fill_toList rfl (fun node member => (directive node member).admits) holds.undirected
      holds.fills
  have contents : NodeKind.sourceFile.contents dialect =
      [.optional [.shebang] :: dialect.bodySlots] := by
    cases dialect <;> rfl
  have root : NodeKind.sourceFile.Holds dialect none
      ((source.directive.map Directive.node).toList ++ nodes) := .first contents filled rfl rfl
  refine root.conforms fun node member => ?_
  rcases List.mem_append.mp member with directed | below
  · exact (directive node (Option.mem_toList.mp directed)).conforms
  · exact holds.conform node below

/-! ## Walks along a text -/

/-- What a walk reads stands along the text of its sections if this holds for each section. -/
theorem Walked.along {μ : Type} {rule : Section → WalkM μ (List Node)} {after : μ → Section → μ}
    {memory : μ} {parts : List Section} {nodes : List Node} {diagnostics : List Diagnostic}
    (walked : Walked rule after memory parts nodes diagnostics)
    (along : Along (Section.StandsOn document) start chars parts)
    (segment : Segment document start chars)
    (each : ∀ {part state nodes final start own}, part.failure = none →
      part.StandsOn document start own → Segment document start own →
      rule part state = .ok nodes final → Along (Node.StandsOn document) start own nodes) :
    Along (Node.StandsOn document) start chars nodes := by
  induction walked generalizing start chars with
  | nil => exact .done
  | read sound reads _ ih =>
    obtain ⟨gap, own, rest, rfl, here, behind⟩ := along.exists_head
    exact .skip ((each sound here segment.right.left reads).append (ih behind segment.right.right))
  | dropped _ _ _ ih =>
    exact ih (along.sublist ((List.sublist_append_right _ _).cons _)) segment

/-! ## The directive on the text -/

/-- A grammar name is a piece of the directive, and it is not empty. -/
theorem isInfix_of_grammarNameOf? {name : String} (names : grammarNameOf? own = some name) :
    name.toList <:+: own ∧ name.toList ≠ [] := by
  unfold grammarNameOf? at names
  simp only [Option.bind_eq_bind, Option.bind_eq_some_iff] at names
  obtain ⟨behind, opening, rest, closing, shaped⟩ := names
  split at shaped
  · next fits =>
    cases shaped
    simp only [Bool.and_eq_true] at fits
    rw [String.toList_ofList]
    refine ⟨?_, fun empty => ?_⟩
    · have cut := List.isPrefixOf?_eq_some_iff_append_eq.mp opening
      have split := takeWhile_append_drop isGrammarNameChar behind
      exact ⟨directiveOpening, _, by rw [List.append_assoc, split, cut]⟩
    · rw [empty] at fits
      exact absurd fits.1 (by decide)
  · cases shaped

/-- The node of a directive stands on its row. -/
theorem Directive.StandsOn.node {directive : Directive}
    (stands : directive.StandsOn document start own) :
    directive.node.StandsOn document start own := by
  obtain ⟨isInfix, nonempty⟩ := isInfix_of_grammarNameOf? stands.names
  obtain ⟨before, behind, cut, found⟩ := exists_offsetOf? isInfix
  have noFeed := stands.copies.noFeed
  have segment := stands.copies.segment
  rw [cut] at noFeed segment
  have line : '\n' ∉ before ++ directive.grammar.toList := fun member =>
    noFeed (by rw [← List.append_assoc]; exact List.mem_append_left behind member)
  have covers := Span.Covers.piece directive.token.span.file start line nonempty
  -- a directive stands on the first row, so that columns count from its start
  have first : start.column + (before.length : Int) = (before.length : Int) + 1 := by
    rw [stands.starts, Int.add_comm]
  rw [first] at covers
  have name : Node.StandsOn document (start.after before) directive.grammar.toList
      (.leafOf .grammarName directive.grammar ⟨directive.token.span.file,
        ⟨start.line, before.length + 1⟩,
        ⟨start.line, before.length + 1 + directive.grammar.toList.length - 1⟩⟩) :=
    Node.standsOn_plain rfl rfl covers segment.part
      fun member => line (List.mem_append_right _ member)
  have node : directive.node = .spanning .shebang
      [.leafOf .grammarName directive.grammar ⟨directive.token.span.file,
        ⟨start.line, before.length + 1⟩,
        ⟨start.line, before.length + 1 + directive.grammar.toList.length - 1⟩⟩]
      (some directive.token.span) := by
    unfold Directive.node
    simp only [stands.copies.value, found, Option.getD_some, stands.copies.covers.starts,
      String.length_toList]
  have inner := Along.skip ((Along.single name).extend behind)
  rw [← cut] at inner
  rw [node]
  exact Node.standsOn_around inner rfl stands.copies.covers rfl

/-! ## Trees over a text -/

/-- What stands along a text that a line feed ends stops before the line feed. -/
theorem Along.stop_le {nodes : List Node} {node : Node} {front : List Char}
    (along : Along (Node.StandsOn document) start (front ++ ['\n']) nodes) (member : node ∈ nodes) :
    ∃ span, node.span = some span ∧ start ≤ span.start ∧ span.stop ≤ start.after front := by
  obtain ⟨gap, own, rest, split, here⟩ := along.exists_on member
  obtain ⟨span, spans, covers⟩ := here.covers
  refine ⟨span, spans, ?_, ?_⟩
  · rw [covers.starts]
    exact Position.le_after start gap
  · obtain ⟨between, rfl⟩ := exists_of_concat_feed split covers.exists_last
    rw [Position.after_append, Position.after_append]
    exact le_of_lt (lt_of_lt_of_le covers.stop_lt (Position.le_after _ between))

/-- In a tree over what stands along the text of a document, every node is spaced and quotes the
text. -/
theorem Document.StandsOn.sound_root {source : Document} {nodes : List Node}
    (stands : source.StandsOn document)
    (body : ∀ {start chars}, Along (Section.StandsOn document) start chars source.sections →
      Segment document start chars → Along (Node.StandsOn document) start chars nodes) :
    ∀ node ∈ (source.root nodes).walk, node.Spaced ∧ node.Quotes document := by
  obtain ⟨front, back, split, directive, sections⟩ := stands.parts
  obtain ⟨text, ends, finish⟩ := stands.finish
  have segment := segment_self document
  rw [split] at segment
  have below := body sections (split ▸ segment.right)
  have above : Along (Node.StandsOn document) Position.origin front
      (source.directive.map Directive.node).toList := by
    rw [Option.toList_map]
    exact directive.map fun _ here => here.node
  -- the directive in front, the nodes of the sections behind it
  have along : Along (Node.StandsOn document) Position.origin (text ++ ['\n'])
      (source.root nodes).children := by
    rw [← split.symm.trans ends]
    exact above.append below
  refine Node.forall_mem_walk.mpr ⟨⟨⟨?_, ?_, along.apart⟩, nofun⟩, ?_⟩
  · exact ⟨_, rfl, le_trans (Position.le_after _ text) finish⟩
  · intro child member
    obtain ⟨span, spans, starts, stops⟩ := along.stop_le member
    refine ⟨span, spans, ?_⟩
    rintro _ ⟨⟩
    exact ⟨starts, le_trans stops finish⟩
  · intro child member
    obtain ⟨_, _, _, _, here⟩ := along.exists_on member
    exact here.sound

end DocGrammar
