import DocGrammar.Tree.Node

/-! # Trees without spans

Two trees are the same when they differ in nothing but spans. Taking the spans away makes that an
equation.

* **`Node.bare`** — a tree without spans.
* **`Node.sameAs_iff`** — trees are the same exactly when they are equal without spans. -/

namespace DocGrammar

namespace Node

/-! ## Taking spans away -/

mutual

/-- A tree without spans. -/
def bare : Node → Node
  | ⟨kind, children, text, field, _⟩ => ⟨kind, bareAll children, text, field, none⟩

/-- Trees without spans. -/
def bareAll : List Node → List Node
  | [] => []
  | node :: others => bare node :: bareAll others

end

/-- A node without a text and without a span. -/
def plain (kind : NodeKind) (children : List Node) : Node := ⟨kind, children, none, none, none⟩

/-- A leaf without a span. -/
def plainLeaf (kind : NodeKind) (text : String) : Node := ⟨kind, [], some text, none, none⟩

variable {node other : Node} {nodes others : List Node}

@[simp] theorem bareAll_eq_map : ∀ nodes : List Node, bareAll nodes = nodes.map bare
  | [] => rfl
  | node :: others => by rw [bareAll, bareAll_eq_map others, List.map_cons]

@[simp] theorem kind_bare (node : Node) : node.bare.kind = node.kind := by
  cases node
  rfl

@[simp] theorem text_bare (node : Node) : node.bare.text = node.text := by
  cases node
  rfl

@[simp] theorem children_bare (node : Node) : node.bare.children = node.children.map bare := by
  cases node
  exact bareAll_eq_map _

@[simp] theorem bare_leaf (kind : NodeKind) (token : Token) :
    (leaf kind token).bare = plainLeaf kind token.value := rfl

@[simp] theorem bare_leafOf (kind : NodeKind) (text : String) (span : Span) :
    (leafOf kind text span).bare = plainLeaf kind text := rfl

@[simp] theorem bare_branch (kind : NodeKind) (children : List Node) :
    (branch kind children).bare = plain kind (children.map bare) := by
  show (⟨kind, bareAll children, none, none, none⟩ : Node) = _
  rw [bareAll_eq_map]
  rfl

@[simp] theorem bare_spanning (kind : NodeKind) (children : List Node) (span : Option Span) :
    (spanning kind children span).bare = plain kind (children.map bare) := by
  show (⟨kind, bareAll children, none, none, none⟩ : Node) = _
  rw [bareAll_eq_map]
  rfl

@[simp] theorem bare_withField (node : Node) (name : String) :
    (node.withField name).bare = node.bare.withField name := by
  cases node
  rfl

@[simp] theorem bare_withText (node : Node) (text : String) :
    (node.withText text).bare = node.bare.withText text := by
  cases node
  rfl

@[simp] theorem kind_plain (kind : NodeKind) (children : List Node) :
    (plain kind children).kind = kind := rfl

@[simp] theorem kind_plainLeaf (kind : NodeKind) (text : String) :
    (plainLeaf kind text).kind = kind := rfl

mutual

/-- Spans are taken away once and for all. -/
@[simp] theorem bare_bare : ∀ node : Node, node.bare.bare = node.bare
  | ⟨kind, children, text, field, _⟩ => by
    have below := bareAll_bareAll children
    simp only [bare, below]

theorem bareAll_bareAll : ∀ nodes : List Node, bareAll (bareAll nodes) = bareAll nodes
  | [] => rfl
  | node :: others => by
    have first := bare_bare node
    have rest := bareAll_bareAll others
    simp only [bareAll, first, rest]

end

/-! ## Sameness -/

mutual

/-- Trees are the same exactly when they are equal without spans. -/
theorem sameAs_iff : ∀ node other : Node, node.sameAs other = true ↔ node.bare = other.bare
  | ⟨kind, children, text, field, span⟩, ⟨otherKind, otherChildren, otherText, otherField, _⟩ => by
    have inner := allSameAs_iff children otherChildren
    simp only [sameAs, bare, Bool.and_eq_true, decide_eq_true_eq, mk.injEq, and_true, inner]
    constructor
    · rintro ⟨⟨⟨kinds, texts⟩, fields⟩, below⟩
      exact ⟨kinds, below, texts, fields⟩
    · rintro ⟨kinds, below, texts, fields⟩
      exact ⟨⟨⟨kinds, texts⟩, fields⟩, below⟩

/-- Lists of trees are the same exactly when they are equal without spans. -/
theorem allSameAs_iff : ∀ nodes others : List Node,
    allSameAs nodes others = true ↔ bareAll nodes = bareAll others
  | [], [] => by simp [allSameAs]
  | [], other :: others => by simp [allSameAs]
  | node :: nodes, [] => by simp [allSameAs]
  | node :: nodes, other :: others => by
    have first := sameAs_iff node other
    have rest := allSameAs_iff nodes others
    simp only [allSameAs, bareAll, Bool.and_eq_true, List.cons.injEq, first, rest]

end

/-- A tree is the same as what it is without spans. -/
theorem sameAs_of_bare (bares : node.bare = other) : node.sameAs other = true := by
  rw [sameAs_iff, ← bares, bare_bare]

/-- Trees are the same as what they are without spans. -/
theorem allSameAs_of_map_bare (bares : nodes.map bare = others) :
    allSameAs nodes others = true := by
  rw [allSameAs_iff, bareAll_eq_map, bareAll_eq_map, ← bares, List.map_map]
  exact List.map_congr_left fun node _ => (bare_bare node).symm

end Node

end DocGrammar
