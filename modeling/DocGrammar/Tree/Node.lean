import DocGrammar.Token.Basic
import DocGrammar.Tree.Kind

/-! # Document trees

A node has a kind and ordered children. A leaf carries the text of its token, and a node may stand
under a field name in its parent. The span is not part of what a tree says: `Node.sameAs` compares
everything else.

* **`Node.leaf`**, **`Node.branch`**, **`Node.spanning`** build nodes.
* **`Node.walk`** lists a tree in pre-order. -/

namespace DocGrammar

/-- A node of a document tree. -/
structure Node where
  /-- The kind of the node. -/
  kind : NodeKind
  /-- The children, in source order. -/
  children : List Node
  /-- The text of a leaf, or the operator of an expression. -/
  text : Option String
  /-- The name under which the parent holds the node. -/
  field : Option String
  /-- Where the node stands. -/
  span : Option Span
  deriving Repr

namespace Node

/-! ## Building nodes -/

/-- A leaf with a text of its own at a span. -/
def leafOf (kind : NodeKind) (text : String) (span : Span) : Node :=
  ⟨kind, [], some text, none, some span⟩

/-- The leaf of a token. -/
def leaf (kind : NodeKind) (token : Token) : Node :=
  leafOf kind token.value token.span

/-- The span from the first to the last of the spans that some nodes have. -/
def extent (nodes : List Node) : Option Span :=
  match nodes.filterMap span with
  | [] => none
  | first :: others => some (first.through (others.getLast?.getD first))

/-- A node that spans its children. -/
def branch (kind : NodeKind) (children : List Node) : Node :=
  ⟨kind, children, none, none, extent children⟩

/-- A node with a span of its own. -/
def spanning (kind : NodeKind) (children : List Node) (span : Option Span) : Node :=
  ⟨kind, children, none, none, span⟩

/-- The node under a field name. -/
def withField (node : Node) (name : String) : Node := { node with field := some name }

/-- The node with a text. -/
def withText (node : Node) (text : String) : Node := { node with text := some text }

/-- The span from `start` to the end of a node. -/
def spanFrom (start : Span) (node : Node) : Option Span := node.span.map start.through

/-- The span from the start of a node to the end of `stop`. -/
def spanTo (node : Node) (stop : Span) : Option Span := node.span.map (·.through stop)

/-! ## Looking at nodes -/

/-- The first child under a field name. -/
def child? (node : Node) (name : String) : Option Node :=
  node.children.find? fun child => child.field == some name

/-- The children of a kind. -/
def childrenOf (node : Node) (kind : NodeKind) : List Node :=
  node.children.filter fun child => child.kind = kind

mutual

/-- A node and all its descendants, in pre-order. -/
def walk : Node → List Node
  | ⟨kind, children, text, field, span⟩ => ⟨kind, children, text, field, span⟩ :: walkAll children

/-- Some nodes and all their descendants, in pre-order. -/
def walkAll : List Node → List Node
  | [] => []
  | node :: others => walk node ++ walkAll others

end

mutual

/-- Whether two trees are equal up to spans. -/
def sameAs : Node → Node → Bool
  | ⟨kind, children, text, field, _⟩, ⟨otherKind, otherChildren, otherText, otherField, _⟩ =>
    kind = otherKind && text = otherText && field = otherField && allSameAs children otherChildren

/-- Whether two lists of trees are equal up to spans. -/
def allSameAs : List Node → List Node → Bool
  | [], [] => true
  | node :: others, otherNode :: otherOthers => sameAs node otherNode && allSameAs others otherOthers
  | _, _ => false

end

end Node

end DocGrammar
