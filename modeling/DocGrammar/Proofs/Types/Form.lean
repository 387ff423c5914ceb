import DocGrammar.Rule.TypeExpr

/-! # The grammar of type expressions

The derivations of the grammar

* type := array (`|` array)*, grouped to the left;
* array := atom (`[` `]`)*;
* atom := NAME, or NAME `<` type (`,` type)* `>`, or `{` NL* properties `}`;
* properties := nothing, or property NL* (`,` NL* property NL*)* with `,` NL* behind them or not;
* property := NAME `:` type;
* whole := NL* type NL* END.

A derivation keeps the tokens it is made of, each with a proof of its kind, so every value of these
types is a derivation. A name with `<` behind it can only be derived with type arguments, since no
type is followed by `<`.

* **`TypeForm.tokens`** — the tokens that a derivation derives.
* **`TypeForm.node`** — the tree of a derivation.
* **`TypeForm.nest`** — one more than the deepest type argument or property type inside. -/

namespace DocGrammar

/-! ## Tokens of a known kind -/

/-- A token of a given kind. -/
abbrev TokenOf (kind : TokenKind) : Type := {token : Token // token.kind = kind}

/-- Line ends. -/
abbrev Feeds : Type := List (TokenOf .newline)

/-- The tokens of line ends. -/
def Feeds.tokens (feeds : Feeds) : List Token := feeds.map Subtype.val

/-- Pairs of brackets behind an array type. -/
abbrev BracketPairs : Type := List (TokenOf .leftBracket × TokenOf .rightBracket)

/-- The tokens of bracket pairs. -/
def BracketPairs.tokens (pairs : BracketPairs) : List Token :=
  pairs.flatMap fun pair => [pair.1.val, pair.2.val]

/-! ## Derivations -/

mutual

/-- A type: an array type with others behind it. -/
inductive TypeForm where
  /-- An array type and the others behind it. -/
  | of (first : ArrayForm) (others : UnionForm)

/-- The array types behind the first one of a type. -/
inductive UnionForm where
  /-- No more array types. -/
  | last
  /-- A bar, an array type and the others behind it. -/
  | bar (mark : TokenOf .pipe) (next : ArrayForm) (others : UnionForm)

/-- An array type: an atom with bracket pairs behind it. -/
inductive ArrayForm where
  /-- An atom and the bracket pairs behind it. -/
  | of (atom : AtomForm) (pairs : BracketPairs)

/-- A type without brackets behind it. -/
inductive AtomForm where
  /-- A name. -/
  | name (word : TokenOf .identifier)
  /-- A name with type arguments. -/
  | generic (word : TokenOf .identifier) (opening : TokenOf .less) (first : TypeForm)
      (others : ArgumentsForm) (closing : TokenOf .greater)
  /-- An object type. -/
  | object (opening : TokenOf .leftBrace) (feeds : Feeds) (body : ObjectForm)
      (closing : TokenOf .rightBrace)

/-- The type arguments behind the first one. -/
inductive ArgumentsForm where
  /-- No more arguments. -/
  | last
  /-- A comma, an argument and the others behind it. -/
  | comma (mark : TokenOf .comma) (next : TypeForm) (others : ArgumentsForm)

/-- What stands between the braces of an object type. -/
inductive ObjectForm where
  /-- No property. -/
  | empty
  /-- A property and the others behind it. -/
  | properties (first : PropertyForm) (feeds : Feeds) (others : PropertiesForm)

/-- A property of an object type. -/
inductive PropertyForm where
  /-- A name and its type. -/
  | of (word : TokenOf .identifier) (colon : TokenOf .colon) (type : TypeForm)

/-- The properties behind the first one. -/
inductive PropertiesForm where
  /-- No more properties. -/
  | last
  /-- A comma behind the last property. -/
  | trailing (mark : TokenOf .comma) (feeds : Feeds)
  /-- A comma, a property and the others behind it. -/
  | comma (mark : TokenOf .comma) (feeds : Feeds) (next : PropertyForm) (feedsBehind : Feeds)
      (others : PropertiesForm)

end

/-! ## What a derivation derives -/

mutual

/-- The tokens of a type. -/
def TypeForm.tokens : TypeForm → List Token
  | .of first others => first.tokens ++ others.tokens

/-- The tokens of the array types behind the first one. -/
def UnionForm.tokens : UnionForm → List Token
  | .last => []
  | .bar mark next others => mark.val :: (next.tokens ++ others.tokens)

/-- The tokens of an array type. -/
def ArrayForm.tokens : ArrayForm → List Token
  | .of atom pairs => atom.tokens ++ pairs.tokens

/-- The tokens of an atom. -/
def AtomForm.tokens : AtomForm → List Token
  | .name word => [word.val]
  | .generic word opening first others closing =>
    word.val :: opening.val :: (first.tokens ++ (others.tokens ++ [closing.val]))
  | .object opening feeds body closing =>
    opening.val :: (feeds.tokens ++ (body.tokens ++ [closing.val]))

/-- The tokens of the arguments behind the first one. -/
def ArgumentsForm.tokens : ArgumentsForm → List Token
  | .last => []
  | .comma mark next others => mark.val :: (next.tokens ++ others.tokens)

/-- The tokens between the braces of an object type. -/
def ObjectForm.tokens : ObjectForm → List Token
  | .empty => []
  | .properties first feeds others => first.tokens ++ (feeds.tokens ++ others.tokens)

/-- The tokens of a property. -/
def PropertyForm.tokens : PropertyForm → List Token
  | .of word colon type => word.val :: colon.val :: type.tokens

/-- The tokens of the properties behind the first one. -/
def PropertiesForm.tokens : PropertiesForm → List Token
  | .last => []
  | .trailing mark feeds => mark.val :: feeds.tokens
  | .comma mark feeds next feedsBehind others =>
    mark.val :: (feeds.tokens ++ (next.tokens ++ (feedsBehind.tokens ++ others.tokens)))

end

/-! ## The tree of a derivation -/

/-- The array type of a type, closed by a bracket. -/
def arrayNode (element : Node) (close : Token) : Node :=
  TypeExpr.wrap (.spanning .arrayType [element] (element.spanTo close.span))

/-- The union of two types. -/
def unionNode (left right : Node) : Node :=
  TypeExpr.wrap (.branch .unionType [left, right])

/-- The type that a single name stands for. -/
def namedNode (word : Token) : Node :=
  TypeExpr.wrap
    (.leaf (if word.value ∈ TypeExpr.primitives then .primitiveType else .identifier) word)

/-- A type with bracket pairs behind it. -/
def BracketPairs.extend (pairs : BracketPairs) (element : Node) : Node :=
  pairs.foldl (fun inner pair => arrayNode inner pair.2.val) element

mutual

/-- The tree of a type. -/
def TypeForm.node : TypeForm → Node
  | .of first others => others.extend first.node

/-- The union of a type with the array types behind it, grouped to the left. -/
def UnionForm.extend : UnionForm → Node → Node
  | .last, left => left
  | .bar _ next others, left => others.extend (unionNode left next.node)

/-- The tree of an array type. -/
def ArrayForm.node : ArrayForm → Node
  | .of atom pairs => pairs.extend atom.node

/-- The tree of an atom. -/
def AtomForm.node : AtomForm → Node
  | .name word => namedNode word.val
  | .generic word _ first others closing =>
    TypeExpr.wrap (.spanning .genericType
      (.leaf .identifier word.val :: first.node :: others.nodes)
      (some (word.val.span.through closing.val.span)))
  | .object opening _ body closing =>
    TypeExpr.wrap (.spanning .objectType body.nodes
      (some (opening.val.span.through closing.val.span)))

/-- The trees of the arguments behind the first one. -/
def ArgumentsForm.nodes : ArgumentsForm → List Node
  | .last => []
  | .comma _ next others => next.node :: others.nodes

/-- The trees of the properties of an object type. -/
def ObjectForm.nodes : ObjectForm → List Node
  | .empty => []
  | .properties first _ others => first.node :: others.nodes

/-- The tree of a property. -/
def PropertyForm.node : PropertyForm → Node
  | .of word _ type => .branch .propertyType [.leaf .identifier word.val, type.node]

/-- The trees of the properties behind the first one. -/
def PropertiesForm.nodes : PropertiesForm → List Node
  | .last => []
  | .trailing _ _ => []
  | .comma _ _ next _ others => next.node :: others.nodes

end

/-! ## The nesting of a derivation -/

mutual

/-- The nesting of a type: one more than that of the deepest type argument or property type. -/
def TypeForm.nest : TypeForm → Nat
  | .of first others => 1 + max first.inside others.inside

/-- The nesting inside the array types behind the first one. -/
def UnionForm.inside : UnionForm → Nat
  | .last => 0
  | .bar _ next others => max next.inside others.inside

/-- The nesting inside an array type. -/
def ArrayForm.inside : ArrayForm → Nat
  | .of atom _ => atom.inside

/-- The nesting inside an atom. -/
def AtomForm.inside : AtomForm → Nat
  | .name _ => 0
  | .generic _ _ first others _ => max first.nest others.inside
  | .object _ _ body _ => body.inside

/-- The nesting inside the arguments behind the first one. -/
def ArgumentsForm.inside : ArgumentsForm → Nat
  | .last => 0
  | .comma _ next others => max next.nest others.inside

/-- The nesting inside the braces of an object type. -/
def ObjectForm.inside : ObjectForm → Nat
  | .empty => 0
  | .properties first _ others => max first.inside others.inside

/-- The nesting inside a property. -/
def PropertyForm.inside : PropertyForm → Nat
  | .of _ _ type => type.nest

/-- The nesting inside the properties behind the first one. -/
def PropertiesForm.inside : PropertiesForm → Nat
  | .last => 0
  | .trailing _ _ => 0
  | .comma _ _ next _ others => max next.inside others.inside

end

/-! ## Whole texts -/

/-- A type with nothing but line ends around it. -/
structure WholeTypeForm where
  /-- The line ends before the type. -/
  feeds : Feeds
  /-- The type. -/
  type : TypeForm
  /-- The line ends behind the type. -/
  feedsBehind : Feeds
  /-- The end of the input. -/
  finish : TokenOf .endOfInput

/-- The tokens of a whole text. -/
def WholeTypeForm.tokens (form : WholeTypeForm) : List Token :=
  form.feeds.tokens ++ (form.type.tokens ++ (form.feedsBehind.tokens ++ [form.finish.val]))

end DocGrammar
