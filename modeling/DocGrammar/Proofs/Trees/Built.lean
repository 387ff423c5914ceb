import DocGrammar.Proofs.Rules.Contract
import DocGrammar.Proofs.Trees.Stand

/-! # Nodes that rules build

What a rule promises of its nodes: they stand on the tokens that it has read, they conform to the
schema, and they are of some kinds. The nodes of a rule become children of the next one, so each way
of making a node has a lemma that says what becomes of the promise.

* **`Sound`** — nodes that stand on tokens and conform to the schema.
* **`Built`** — sound nodes of some kinds, without field names.
* **`Sound.branch`**, **`Sound.between`**, **`Sound.spanFrom`**, **`Sound.spanTo`** — new nodes. -/

namespace DocGrammar

/-! ## Sound nodes -/

/-- Some nodes stand on some tokens and conform to the schema. -/
structure Sound (dialect : Dialect) (tokens : List Token) (nodes : List Node) : Prop where
  /-- They stand on the tokens. -/
  stands : Stand dialect tokens nodes
  /-- They conform. -/
  conform : ∀ node ∈ nodes, node.conforms dialect = true

/-- Some nodes are sound, of some kinds and without field names. -/
structure Built (dialect : Dialect) (kinds : List NodeKind) (tokens : List Token)
    (nodes : List Node) : Prop extends Sound dialect tokens nodes where
  /-- They are of the kinds. -/
  kinds : ∀ node ∈ nodes, node.kind ∈ kinds
  /-- They have no field names. -/
  fields : ∀ node ∈ nodes, node.field = none

/-- Whether inner nodes of a kind with a given text may hold some children. -/
structure NodeKind.Holds (kind : NodeKind) (dialect : Dialect) (text : Option String)
    (children : List Node) : Prop where
  /-- The kind is that of inner nodes. -/
  branches : kind.isLeaf = false
  /-- The text is there if the kind wants it. -/
  texts : text.isSome = kind.carriesText
  /-- The children are what the kind prescribes. -/
  fills : ∃ slots ∈ kind.contents dialect, Slot.fill slots children = true

/-- The only or first contents of a kind are filled. -/
theorem NodeKind.Holds.first {kind : NodeKind} {dialect : Dialect} {text : Option String}
    {children : List Node} {slots : List Slot} {more : List (List Slot)}
    (prescribes : kind.contents dialect = slots :: more)
    (filled : Slot.fill slots children = true) (branches : kind.isLeaf = false)
    (texts : text.isSome = kind.carriesText) : kind.Holds dialect text children :=
  ⟨branches, texts, slots, prescribes ▸ List.mem_cons_self, filled⟩

/-- A node that holds what its kind prescribes conforms if its children do. -/
theorem NodeKind.Holds.conforms {kind : NodeKind} {dialect : Dialect} {text field : Option String}
    {children : List Node} {span : Option Span} (holds : kind.Holds dialect text children)
    (inner : ∀ child ∈ children, child.conforms dialect = true) :
    Node.conforms dialect ⟨kind, children, text, field, span⟩ = true := by
  obtain ⟨slots, member, filled⟩ := holds.fills
  exact Node.conforms_iff.mpr ⟨Node.fits_of_mem holds.texts member filled, inner⟩

/-- A leaf of a kind without children conforms. -/
theorem Node.conforms_leafOf {kind : NodeKind} {dialect : Dialect} (texts : kind.carriesText = true)
    (prescribes : kind.contents dialect = [[]]) (text : String) (span : Span) :
    (Node.leafOf kind text span).conforms dialect = true := by
  have member : [] ∈ kind.contents dialect := by
    rw [prescribes]
    exact List.mem_cons_self
  exact Node.conforms_iff.mpr ⟨Node.fits_of_mem texts.symm member rfl, List.forall_mem_nil _⟩

/-- Kinds that both dialects share have the same contents in both of them. -/
theorem NodeKind.contents_eq {kind : NodeKind} {dialect : Dialect} {contents : List (List Slot)}
    (specs : kind.specsContents = contents) (pseudo : kind.pseudoContents = contents) :
    kind.contents dialect = contents := by
  cases dialect with
  | specs => exact specs
  | pseudo => exact pseudo

variable {dialect : Dialect} {tokens more : List Token} {nodes others children : List Node}
  {node first last : Node} {kind : NodeKind} {kinds moreKinds : List NodeKind}
  {text : Option String} {start stop : Token}

/-- A single node that stands on tokens and conforms is built on them. -/
theorem Built.single (stands : Stand dialect tokens [node])
    (conforms : node.conforms dialect = true) (kind : node.kind ∈ kinds)
    (field : node.field = none) : Built dialect kinds tokens [node] :=
  ⟨⟨stands, List.forall_mem_singleton.mpr conforms⟩, List.forall_mem_singleton.mpr kind,
    List.forall_mem_singleton.mpr field⟩

namespace Sound

theorem none : Sound dialect tokens [] :=
  ⟨.none, List.forall_mem_nil _⟩

theorem append (sound : Sound dialect tokens nodes) (sound' : Sound dialect more others) :
    Sound dialect (tokens ++ more) (nodes ++ others) :=
  ⟨sound.stands.append sound'.stands, fun node member =>
    (List.mem_append.mp member).elim (sound.conform node) (sound'.conform node)⟩

theorem skipAll (sound : Sound dialect tokens nodes) (before : List Token) :
    Sound dialect (before ++ tokens) nodes :=
  ⟨sound.stands.skipAll before, sound.conform⟩

theorem extend (sound : Sound dialect tokens nodes) (behind : List Token) :
    Sound dialect (tokens ++ behind) nodes :=
  ⟨sound.stands.extend behind, sound.conform⟩

/-- A node under a field name is as sound as without. -/
theorem withField (sound : Sound dialect tokens [node]) (name : String) :
    Sound dialect tokens [node.withField name] := by
  refine ⟨sound.stands.withField name, fun other member => ?_⟩
  rw [List.mem_singleton.mp member, Node.conforms_withField]
  exact sound.conform node List.mem_cons_self

/-- The children of a sound inner node are sound. -/
theorem children_of (sound : Sound dialect tokens [node]) (branches : node.kind.isLeaf = false) :
    Sound dialect tokens node.children :=
  ⟨sound.stands.children_of branches,
    (Node.conforms_iff.mp (sound.conform node List.mem_cons_self)).2⟩

/-! ### New nodes -/

/-- A node that stands somewhere is built if it holds what its kind prescribes. -/
theorem built {span : Option Span} (sound : Sound dialect tokens children)
    (stands : Stand dialect more [⟨kind, children, text, .none, span⟩])
    (holds : kind.Holds dialect text children) :
    Built dialect [kind] more [⟨kind, children, text, .none, span⟩] :=
  .single stands (holds.conforms sound.conform) List.mem_cons_self rfl

/-- A node that spans its children. -/
theorem branch (sound : Sound dialect tokens children) (nonempty : children ≠ [])
    (holds : kind.Holds dialect text children) :
    Built dialect [kind] tokens [⟨kind, children, text, .none, Node.extent children⟩] :=
  sound.built (sound.stands.branch nonempty holds.branches) holds

/-- A node from an opening to a closing token. -/
theorem between (sound : Sound dialect tokens children) (solid : start.kind.isSolid = true)
    (solid' : stop.kind.isSolid = true) (holds : kind.Holds dialect text children) :
    Built dialect [kind] (start :: (tokens ++ [stop]))
      [⟨kind, children, text, .none, some (start.span.through stop.span)⟩] :=
  sound.built (sound.stands.between solid solid' holds.branches) holds

/-- A node from an opening token to the end of its last child. -/
theorem spanFrom (sound : Sound dialect tokens children) (ends : children.getLast? = some last)
    (solid : start.kind.isSolid = true) (holds : kind.Holds dialect text children) :
    Built dialect [kind] (start :: tokens)
      [⟨kind, children, text, .none, last.spanFrom start.span⟩] :=
  sound.built (sound.stands.spanFrom ends solid holds.branches) holds

/-- A node from the start of its first child to a closing token. -/
theorem spanTo (sound : Sound dialect tokens children) (starts : children.head? = some first)
    (solid : stop.kind.isSolid = true) (holds : kind.Holds dialect text children) :
    Built dialect [kind] (tokens ++ [stop])
      [⟨kind, children, text, .none, first.spanTo stop.span⟩] :=
  sound.built (sound.stands.spanTo starts solid holds.branches) holds

end Sound

namespace Built

theorem none : Built dialect kinds tokens [] :=
  ⟨.none, List.forall_mem_nil _, List.forall_mem_nil _⟩

theorem append (built : Built dialect kinds tokens nodes)
    (built' : Built dialect kinds more others) :
    Built dialect kinds (tokens ++ more) (nodes ++ others) :=
  ⟨built.toSound.append built'.toSound,
    fun node member => (List.mem_append.mp member).elim (built.kinds node) (built'.kinds node),
    fun node member => (List.mem_append.mp member).elim (built.fields node) (built'.fields node)⟩

theorem mono (built : Built dialect kinds tokens nodes) (subset : kinds ⊆ moreKinds) :
    Built dialect moreKinds tokens nodes :=
  ⟨built.toSound, fun node member => subset (built.kinds node member), built.fields⟩

theorem skipAll (built : Built dialect kinds tokens nodes) (before : List Token) :
    Built dialect kinds (before ++ tokens) nodes :=
  ⟨built.toSound.skipAll before, built.kinds, built.fields⟩

theorem extend (built : Built dialect kinds tokens nodes) (behind : List Token) :
    Built dialect kinds (tokens ++ behind) nodes :=
  ⟨built.toSound.extend behind, built.kinds, built.fields⟩

/-- What is built is a part of something. -/
theorem isPart (built : Built dialect kinds tokens nodes) :
    ∀ node ∈ nodes, node.IsPart dialect kinds :=
  fun node member => ⟨built.conform node member, built.kinds node member, built.fields node member⟩

theorem ne_nil (built : Built dialect kinds tokens [node]) : tokens ≠ [] := built.stands.ne_nil

theorem kind_mem (built : Built dialect kinds tokens [node]) : node.kind ∈ kinds :=
  built.kinds node List.mem_cons_self

/-- What is built of some kinds may stand in a slot for these kinds. -/
theorem admits {occurrence : Occurrence} (built : Built dialect kinds tokens nodes) :
    ∀ node ∈ nodes, Slot.admits ⟨occurrence, kinds, .none, []⟩ node = true :=
  fun node member => (built.isPart node member).admits

theorem admits_single {occurrence : Occurrence} (built : Built dialect kinds tokens [node]) :
    Slot.admits ⟨occurrence, kinds, .none, []⟩ node = true :=
  built.admits node List.mem_cons_self

/-- A node under a field name may stand in a slot of this name. -/
theorem admits_named {occurrence : Occurrence} (built : Built dialect kinds tokens [node])
    (name : String) : Slot.admits ⟨occurrence, kinds, some name, []⟩ (node.withField name) = true :=
  Slot.admits_of_kind built.kind_mem rfl

/-- One more node behind others, with tokens in between that are passed over. -/
theorem add (built : Built dialect kinds tokens nodes) (between : List Token)
    (built' : Built dialect kinds more [node]) :
    Built dialect kinds (tokens ++ (between ++ more)) (nodes ++ [node]) :=
  built.append (built'.skipAll between)

end Built

/-! ## Leaves -/

/-- A leaf is built on its token. -/
theorem built_leaf {token : Token} {tokenKind : TokenKind} (known : token.kind = tokenKind)
    (made : kind.isLeafOf tokenKind = true) (texts : kind.carriesText = true)
    (prescribes : kind.contents dialect = [[]]) :
    Built dialect [kind] [token] [Node.leaf kind token] :=
  .single (.leaf (known ▸ made) .none)
    (Node.conforms_leafOf texts prescribes token.value token.span) List.mem_cons_self rfl

theorem built_identifier {token : Token} (name : token.kind = .identifier) :
    Built dialect [.identifier] [token] [Node.leaf .identifier token] :=
  built_leaf name rfl rfl (NodeKind.contents_eq rfl rfl)

namespace Rule

variable {token : Token} {tokenKind : TokenKind}

/-- Where a token that leaves are made of is the current one, its leaf is read. -/
theorem givesFrom_leaf (known : token.kind = tokenKind) (made : kind.isLeafOf tokenKind = true)
    (texts : kind.carriesText = true) (prescribes : kind.contents dialect = [[]]) :
    (leaf kind).GivesFrom token fun read node => Built dialect [kind] read [node] := by
  have inner : tokenKind ≠ .endOfInput := by
    rintro rfl
    cases NodeKind.isSolid_of_isLeafOf made
  refine (givesFrom_advance known inner).bind ?_
  rintro _ _ ⟨rfl, rfl⟩
  exact gives_pure (built_leaf known made texts prescribes)

/-- What builds a node of some kinds builds one of more kinds. -/
theorem GivesFrom.widen {rule : Rule Node}
    (gives : rule.GivesFrom token fun read node => Built dialect kinds read [node])
    (subset : kinds ⊆ moreKinds) :
    rule.GivesFrom token fun read node => Built dialect moreKinds read [node] :=
  gives.mono fun _ _ built => built.mono subset

theorem gives_identifier (dialect : Dialect) :
    identifier.Gives fun read node => Built dialect [.identifier] read [node] := by
  refine (gives_expect (by decide) _).bind ?_
  rintro name _ ⟨rfl, kind⟩
  exact gives_pure (built_identifier kind)

/-! ## Lists of nodes -/

variable {close : TokenKind} {separator : Rule Unit} {item : Rule Node}

/-- A separated list builds what its items build. -/
theorem givesUpTo_nodes (separates : separator.Gives fun _ _ => True)
    (gives : item.Gives fun read node => Built dialect kinds read [node]) :
    (delimited close separator item).GivesUpTo close (Built dialect kinds) :=
  givesUpTo_delimited separates gives (fun _ _ built => built.ne_nil) .none
    fun _ _ between _ _ built built' => built.add between built'

/-- One or more items with separators between them build what the items build. -/
theorem gives_nodes (gives : item.Gives fun read node => Built dialect kinds read [node])
    (inner : close ≠ .endOfInput) :
    (chain close item).Gives fun read nodes => Built dialect kinds read nodes ∧ nodes ≠ [] := by
  refine gives_chain gives inner (fun _ _ built => ⟨built, List.cons_ne_nil _ _⟩) ?_
  rintro before nodes between read node ⟨built, _⟩ built'
  exact ⟨built.add between built', by simp⟩

end Rule

end DocGrammar
