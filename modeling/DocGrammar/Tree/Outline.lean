import DocGrammar.Text.Literal
import DocGrammar.Tree.Node

/-! # Outlines of trees

An outline is what a rendered tree shows: the kinds and the order of the nodes, and of the field
names and texts as many as are stated. Fixtures state the expected tree as an outline, and a tree
is rendered by taking its outline first.

* **`Node.outline`** — the outline of a tree, with or without fields and texts.
* **`Outline.line`**, **`Outline.pretty`** — an outline on one line, or on one line per node.
* **`Outline.accepts`** — whether a tree has all that an outline states. -/

namespace DocGrammar

/-- The shape of a tree, with field names and texts where they are stated. -/
structure Outline where
  /-- The name of the node's kind. -/
  kind : String
  /-- The text of the node, where it is stated. -/
  text : Option String
  /-- The field name of the node, where it is stated. -/
  field : Option String
  /-- The outlines of the children. -/
  children : List Outline
  deriving Repr

/-! ## The outline of a tree -/

/-- What an outline states besides kinds. -/
structure OutlineDetail where
  /-- Whether field names are stated. -/
  fields : Bool
  /-- Whether texts are stated. -/
  texts : Bool
  deriving DecidableEq, Repr

mutual

/-- The outline of a tree in the place of a child. -/
def Node.childOutline (detail : OutlineDetail) : Node → Outline
  | ⟨kind, children, text, field, _⟩ =>
    ⟨kind.name, if detail.texts then text else none, if detail.fields then field else none,
      Node.childOutlines detail children⟩

/-- The outlines of some children. -/
def Node.childOutlines (detail : OutlineDetail) : List Node → List Outline
  | [] => []
  | node :: others => Node.childOutline detail node :: Node.childOutlines detail others

end

/-- The outline of a tree. The root stands under no field. -/
def Node.outline (detail : OutlineDetail) (node : Node) : Outline :=
  { Node.childOutline detail node with field := none }

namespace Outline

/-! ## Rendering -/

/-- The opening of a node: its kind and its text. -/
def opening (kind : String) (text : Option String) : String :=
  match text with
  | none => "(" ++ kind
  | some text => "(" ++ kind ++ " " ++ Literal.encode text

/-- The field name before a node, if it has one that is not empty. -/
def label (field : Option String) : String :=
  match field with
  | none => ""
  | some name => if name.isEmpty then "" else name ++ ": "

mutual

/-- An outline on one line. -/
def line : Outline → String
  | ⟨kind, text, _, children⟩ => opening kind text ++ childLines children ++ ")"

/-- The outlines of children on one line, each behind a space and its field name. -/
def childLines : List Outline → String
  | [] => ""
  | ⟨kind, text, field, children⟩ :: others =>
    " " ++ label field ++ line ⟨kind, text, field, children⟩ ++ childLines others

end

/-- The lines with a text put behind the last one. -/
def closeLast (lines : List String) : List String :=
  match lines with
  | [] => []
  | [last] => [last ++ ")"]
  | first :: others => first :: closeLast others

/-- The indentation of a level. -/
def padding (indent : String) (level : Nat) : String :=
  String.join (List.replicate level indent)

mutual

/-- The lines of an outline at a level of indentation. -/
def prettyLines (indent : String) (level : Nat) : Outline → List String
  | ⟨kind, text, field, children⟩ =>
    closeLast ((padding indent level ++ label field ++ opening kind text) ::
      prettyChildren indent (level + 1) children)

/-- The lines of the outlines of children at a level of indentation. -/
def prettyChildren (indent : String) (level : Nat) : List Outline → List String
  | [] => []
  | child :: others => prettyLines indent level child ++ prettyChildren indent level others

end

/-- The indentation of rendered trees. -/
def standardIndent : String := "  "

/-- An outline with one line per node. -/
def pretty (outline : Outline) (indent : String) : String :=
  "\n".intercalate (prettyLines indent 0 outline)

/-! ## What an outline states -/

mutual

/-- Whether an outline states a field name. -/
def statesField : Outline → Bool
  | ⟨_, _, field, children⟩ => field.isSome || anyStatesField children

/-- Whether one of some outlines states a field name. -/
def anyStatesField : List Outline → Bool
  | [] => false
  | outline :: others => statesField outline || anyStatesField others

end

mutual

/-- Whether an outline states a text. -/
def statesText : Outline → Bool
  | ⟨_, text, _, children⟩ => text.isSome || anyStatesText children

/-- Whether one of some outlines states a text. -/
def anyStatesText : List Outline → Bool
  | [] => false
  | outline :: others => statesText outline || anyStatesText others

end

/-- The detail that an outline states. -/
def detail (outline : Outline) : OutlineDetail :=
  ⟨outline.statesField, outline.statesText⟩

/-! ## Comparing with a tree -/

/-- Whether a stated value, if any, is the actual one. -/
def agrees (stated actual : Option String) : Bool :=
  stated.isNone || stated = actual

mutual

/-- Whether a tree has the kinds, the child order, and the stated fields and texts. -/
def accepts : Outline → Node → Bool
  | ⟨kind, text, field, children⟩, ⟨nodeKind, nodeChildren, nodeText, nodeField, _⟩ =>
    kind = nodeKind.name && agrees text nodeText && agrees field nodeField &&
      allAccept children nodeChildren

/-- Whether some trees are accepted one by one. -/
def allAccept : List Outline → List Node → Bool
  | [], [] => true
  | outline :: others, node :: nodes => accepts outline node && allAccept others nodes
  | _, _ => false

end

end Outline

end DocGrammar
