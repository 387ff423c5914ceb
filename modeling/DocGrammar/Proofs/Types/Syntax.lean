import DocGrammar.Proofs.Rules.Symbols
import DocGrammar.Proofs.Types.Completeness

/-! # Types as trees

The types that can be written down on one line, as trees of their own. Whatever tokens say the
symbols of a type, they have a derivation, so the rule of types reads them and builds the node of
the type.

* **`TypeTree`** — types over the names that a keyword table leaves free.
* **`TypeTree.symbols`**, **`TypeTree.node`** — how a type is written and what it becomes.
* **`TypeTree.exists_form`** — what says a type derives it.
* **`TypeTree.reads`** — the rule of types reads every type. -/

namespace DocGrammar

/-! ## Trees -/

mutual

/-- A type: array types with bars between them. -/
inductive TypeTree (keywords : KeywordTable) where
  /-- An array type and the others behind it. -/
  | of (first : ArrayTree keywords) (others : List (ArrayTree keywords))

/-- An array type: an atom with some pairs of brackets behind it. -/
inductive ArrayTree (keywords : KeywordTable) where
  /-- An atom and the number of bracket pairs behind it. -/
  | of (atom : AtomTree keywords) (pairs : Nat)

/-- A type without brackets behind it. -/
inductive AtomTree (keywords : KeywordTable) where
  /-- A name. -/
  | name (word : Identifier keywords)
  /-- A name with type arguments. -/
  | generic (word : Identifier keywords) (first : TypeTree keywords)
      (others : List (TypeTree keywords))
  /-- An object type. -/
  | object (properties : List (PropertyTree keywords))

/-- A property of an object type. -/
inductive PropertyTree (keywords : KeywordTable) where
  /-- A name and its type. -/
  | of (word : Identifier keywords) (type : TypeTree keywords)

end

variable {keywords : KeywordTable}

/-! ## Writing -/

mutual

/-- The symbols of a type. -/
def TypeTree.symbols : TypeTree keywords → List (Symbol keywords)
  | .of first others => first.symbols ++ arraySymbols others

/-- The symbols of array types, with a bar before each. -/
def arraySymbols : List (ArrayTree keywords) → List (Symbol keywords)
  | [] => []
  | next :: others => .pipe :: (next.symbols ++ arraySymbols others)

/-- The symbols of an array type. -/
def ArrayTree.symbols : ArrayTree keywords → List (Symbol keywords)
  | .of atom pairs =>
    atom.symbols ++ (List.replicate pairs [.leftBracket, .rightBracket]).flatten

/-- The symbols of an atom. -/
def AtomTree.symbols : AtomTree keywords → List (Symbol keywords)
  | .name word => [.name word]
  | .generic word first others =>
    .name word :: .mark .less :: (first.symbols ++ (argumentSymbols others ++ [.mark .greater]))
  | .object properties =>
    .leftBrace :: (propertiesSymbols properties ++ [.rightBrace])

/-- The symbols of type arguments, with a comma before each. -/
def argumentSymbols : List (TypeTree keywords) → List (Symbol keywords)
  | [] => []
  | next :: others => .comma :: (next.symbols ++ argumentSymbols others)

/-- The symbols of a property. -/
def PropertyTree.symbols : PropertyTree keywords → List (Symbol keywords)
  | .of word type => .name word :: .colon :: type.symbols

/-- The symbols of properties, with commas between them. -/
def propertiesSymbols : List (PropertyTree keywords) → List (Symbol keywords)
  | [] => []
  | first :: others => first.symbols ++ furtherSymbols others

/-- The symbols of properties, with a comma before each. -/
def furtherSymbols : List (PropertyTree keywords) → List (Symbol keywords)
  | [] => []
  | next :: others => .comma :: (next.symbols ++ furtherSymbols others)

end

/-! ## Nodes -/

/-- The node of a type around one of its alternatives. -/
def typeNode (inner : Node) : Node := .plain .typeSpecification [inner]

/-- The node of an array type. -/
def arrayTypeNode (element : Node) : Node := typeNode (.plain .arrayType [element])

/-- The node of a type with some pairs of brackets behind it. -/
def bracketed : Nat → Node → Node
  | 0, element => element
  | pairs + 1, element => bracketed pairs (arrayTypeNode element)

/-- The node of the union of two types. -/
def unionTypeNode (left right : Node) : Node := typeNode (.plain .unionType [left, right])

/-- The node of the type that a single name stands for. -/
def nameTypeNode (name : String) : Node :=
  typeNode (.plainLeaf (if name ∈ TypeExpr.primitives then .primitiveType else .identifier) name)

mutual

/-- The node of a type. -/
def TypeTree.node : TypeTree keywords → Node
  | .of first others => unionOf first.node others

/-- The union of a type with the array types behind it, grouped to the left. -/
def unionOf (left : Node) : List (ArrayTree keywords) → Node
  | [] => left
  | next :: others => unionOf (unionTypeNode left next.node) others

/-- The node of an array type. -/
def ArrayTree.node : ArrayTree keywords → Node
  | .of atom pairs => bracketed pairs atom.node

/-- The node of an atom. -/
def AtomTree.node : AtomTree keywords → Node
  | .name word => nameTypeNode word.text
  | .generic word first others =>
    typeNode (.plain .genericType
      (.plainLeaf .identifier word.text :: first.node :: typeNodes others))
  | .object properties => typeNode (.plain .objectType (propertyNodes properties))

/-- The nodes of some types. -/
def typeNodes : List (TypeTree keywords) → List Node
  | [] => []
  | next :: others => next.node :: typeNodes others

/-- The node of a property. -/
def PropertyTree.node : PropertyTree keywords → Node
  | .of word type => .plain .propertyType [.plainLeaf .identifier word.text, type.node]

/-- The nodes of some properties. -/
def propertyNodes : List (PropertyTree keywords) → List Node
  | [] => []
  | next :: others => next.node :: propertyNodes others

end

/-! ## Nesting -/

mutual

/-- The nesting of a type: one more than that of the deepest type argument or property type. -/
def TypeTree.nest : TypeTree keywords → Nat
  | .of first others => 1 + max first.inside (arraysInside others)

/-- The nesting inside some array types. -/
def arraysInside : List (ArrayTree keywords) → Nat
  | [] => 0
  | next :: others => max next.inside (arraysInside others)

/-- The nesting inside an array type. -/
def ArrayTree.inside : ArrayTree keywords → Nat
  | .of atom _ => atom.inside

/-- The nesting inside an atom. -/
def AtomTree.inside : AtomTree keywords → Nat
  | .name _ => 0
  | .generic _ first others => max first.nest (typesNest others)
  | .object properties => propertiesInside properties

/-- The nesting of the deepest of some types. -/
def typesNest : List (TypeTree keywords) → Nat
  | [] => 0
  | next :: others => max next.nest (typesNest others)

/-- The nesting inside a property. -/
def PropertyTree.inside : PropertyTree keywords → Nat
  | .of _ type => type.nest

/-- The nesting inside some properties. -/
def propertiesInside : List (PropertyTree keywords) → Nat
  | [] => 0
  | next :: others => max next.inside (propertiesInside others)

end

mutual

/-- A type is nested at most as deep as it has symbols. -/
theorem TypeTree.nest_le_weight : ∀ tree : TypeTree keywords, tree.nest ≤ weight tree.symbols
  | .of first others => by
    have one := first.inside_lt_weight
    have more := arraysInside_le_weight others
    simp only [TypeTree.nest, TypeTree.symbols, weight_append]
    omega

theorem arraysInside_le_weight : ∀ others : List (ArrayTree keywords),
    arraysInside others ≤ weight (arraySymbols others)
  | [] => Nat.le_refl _
  | next :: others => by
    have one := next.inside_lt_weight
    have more := arraysInside_le_weight others
    simp only [arraysInside, arraySymbols, weight_mark, weight_append]
    omega

theorem ArrayTree.inside_lt_weight : ∀ tree : ArrayTree keywords,
    tree.inside < weight tree.symbols
  | .of atom pairs => by
    have inner := AtomTree.inside_lt_weight atom
    simp only [ArrayTree.inside, ArrayTree.symbols, weight_append]
    omega

theorem AtomTree.inside_lt_weight : ∀ tree : AtomTree keywords, tree.inside < weight tree.symbols
  | .name _ => Nat.zero_lt_one
  | .generic _ first others => by
    have one := first.nest_le_weight
    have more := typesNest_le_weight others
    simp only [AtomTree.inside, AtomTree.symbols, weight_name, weight_mark, weight_append]
    omega
  | .object properties => by
    have inner := propertiesInside_le_weight properties
    simp only [AtomTree.inside, AtomTree.symbols, weight_mark, weight_append]
    omega

theorem typesNest_le_weight : ∀ others : List (TypeTree keywords),
    typesNest others ≤ weight (argumentSymbols others)
  | [] => Nat.le_refl _
  | next :: others => by
    have one := next.nest_le_weight
    have more := typesNest_le_weight others
    simp only [typesNest, argumentSymbols, weight_mark, weight_append]
    omega

theorem PropertyTree.inside_le_weight : ∀ tree : PropertyTree keywords,
    tree.inside ≤ weight tree.symbols
  | .of _ type => by
    have inner := type.nest_le_weight
    simp only [PropertyTree.inside, PropertyTree.symbols, weight_name, weight_mark]
    omega

theorem propertiesInside_le_weight : ∀ properties : List (PropertyTree keywords),
    propertiesInside properties ≤ weight (propertiesSymbols properties)
  | [] => Nat.le_refl _
  | first :: others => by
    have one := first.inside_le_weight
    have more := furtherInside_le_weight others
    simp only [propertiesInside, propertiesSymbols, weight_append]
    omega

theorem furtherInside_le_weight : ∀ properties : List (PropertyTree keywords),
    propertiesInside properties ≤ weight (furtherSymbols properties)
  | [] => Nat.le_refl _
  | next :: others => by
    have one := next.inside_le_weight
    have more := furtherInside_le_weight others
    simp only [propertiesInside, furtherSymbols, weight_mark, weight_append]
    omega

end

/-! ## Types hold no literals -/

mutual

/-- A type is written without literals. -/
theorem TypeTree.noLiteral : ∀ tree : TypeTree keywords, ∀ symbol ∈ tree.symbols,
    symbol.isLiteral = false
  | .of first others =>
    List.forall_mem_append.mpr ⟨first.noLiteral, noLiteral_arraySymbols others⟩

theorem noLiteral_arraySymbols : ∀ others : List (ArrayTree keywords),
    ∀ symbol ∈ arraySymbols others, symbol.isLiteral = false
  | [] => fun _ member => absurd member List.not_mem_nil
  | next :: others =>
    List.forall_mem_cons.mpr
      ⟨rfl, List.forall_mem_append.mpr ⟨next.noLiteral, noLiteral_arraySymbols others⟩⟩

theorem ArrayTree.noLiteral : ∀ tree : ArrayTree keywords, ∀ symbol ∈ tree.symbols,
    symbol.isLiteral = false
  | .of atom pairs => by
    refine List.forall_mem_append.mpr ⟨AtomTree.noLiteral atom, fun symbol member => ?_⟩
    obtain ⟨pair, copied, inside⟩ := List.mem_flatten.mp member
    rw [List.eq_of_mem_replicate copied] at inside
    simp only [List.mem_cons, List.not_mem_nil, or_false] at inside
    rcases inside with rfl | rfl <;> rfl

theorem AtomTree.noLiteral : ∀ tree : AtomTree keywords, ∀ symbol ∈ tree.symbols,
    symbol.isLiteral = false
  | .name _ => List.forall_mem_singleton.mpr rfl
  | .generic _ first others =>
    List.forall_mem_cons.mpr ⟨rfl, List.forall_mem_cons.mpr ⟨rfl, List.forall_mem_append.mpr
      ⟨first.noLiteral, List.forall_mem_append.mpr
        ⟨noLiteral_argumentSymbols others, List.forall_mem_singleton.mpr rfl⟩⟩⟩⟩
  | .object properties =>
    List.forall_mem_cons.mpr ⟨rfl, List.forall_mem_append.mpr
      ⟨noLiteral_propertiesSymbols properties, List.forall_mem_singleton.mpr rfl⟩⟩

theorem noLiteral_argumentSymbols : ∀ others : List (TypeTree keywords),
    ∀ symbol ∈ argumentSymbols others, symbol.isLiteral = false
  | [] => fun _ member => absurd member List.not_mem_nil
  | next :: others =>
    List.forall_mem_cons.mpr
      ⟨rfl, List.forall_mem_append.mpr ⟨next.noLiteral, noLiteral_argumentSymbols others⟩⟩

theorem PropertyTree.noLiteral : ∀ tree : PropertyTree keywords, ∀ symbol ∈ tree.symbols,
    symbol.isLiteral = false
  | .of _ type =>
    List.forall_mem_cons.mpr ⟨rfl, List.forall_mem_cons.mpr ⟨rfl, type.noLiteral⟩⟩

theorem noLiteral_propertiesSymbols : ∀ properties : List (PropertyTree keywords),
    ∀ symbol ∈ propertiesSymbols properties, symbol.isLiteral = false
  | [] => fun _ member => absurd member List.not_mem_nil
  | first :: others =>
    List.forall_mem_append.mpr ⟨first.noLiteral, noLiteral_furtherSymbols others⟩

theorem noLiteral_furtherSymbols : ∀ properties : List (PropertyTree keywords),
    ∀ symbol ∈ furtherSymbols properties, symbol.isLiteral = false
  | [] => fun _ member => absurd member List.not_mem_nil
  | next :: others =>
    List.forall_mem_cons.mpr
      ⟨rfl, List.forall_mem_append.mpr ⟨next.noLiteral, noLiteral_furtherSymbols others⟩⟩

end

/-! ## Types are phrases -/

mutual

/-- A type is a phrase. -/
theorem TypeTree.isPhrase : ∀ tree : TypeTree keywords, IsPhrase tree.symbols
  | .of first others => first.isPhrase.append (isPhrase_arraySymbols others)

theorem isPhrase_arraySymbols : ∀ others : List (ArrayTree keywords),
    IsPhrase (arraySymbols others)
  | [] => isPhrase_nil
  | next :: others => (next.isPhrase.append (isPhrase_arraySymbols others)).cons rfl

theorem ArrayTree.isPhrase : ∀ tree : ArrayTree keywords, IsPhrase tree.symbols
  | .of atom pairs => by
    have brackets : IsPhrase
        (List.replicate pairs
          ([.leftBracket, .rightBracket] : List (Symbol keywords))).flatten := by
      induction pairs with
      | zero => exact isPhrase_nil
      | succ pairs ih =>
        exact (isPhrase_nil.enclosed (.inr rfl) (.inr rfl)).append ih
    exact (AtomTree.isPhrase atom).append brackets

theorem AtomTree.isPhrase : ∀ tree : AtomTree keywords, IsPhrase tree.symbols
  | .name _ => isPhrase_singleton rfl
  | .generic _ first others =>
    ((first.isPhrase.append
      ((isPhrase_argumentSymbols others).append (isPhrase_singleton rfl))).cons rfl).cons rfl
  | .object properties =>
    ((isPhrase_propertiesSymbols properties).append (isPhrase_singleton rfl)).cons rfl

theorem isPhrase_argumentSymbols : ∀ others : List (TypeTree keywords),
    IsPhrase (argumentSymbols others)
  | [] => isPhrase_nil
  | next :: others => (next.isPhrase.append (isPhrase_argumentSymbols others)).cons rfl

theorem PropertyTree.isPhrase : ∀ tree : PropertyTree keywords, IsPhrase tree.symbols
  | .of _ type => (type.isPhrase.cons rfl).cons rfl

theorem isPhrase_propertiesSymbols : ∀ properties : List (PropertyTree keywords),
    IsPhrase (propertiesSymbols properties)
  | [] => isPhrase_nil
  | first :: others => first.isPhrase.append (isPhrase_furtherSymbols others)

theorem isPhrase_furtherSymbols : ∀ others : List (PropertyTree keywords),
    IsPhrase (furtherSymbols others)
  | [] => isPhrase_nil
  | next :: others => (next.isPhrase.append (isPhrase_furtherSymbols others)).cons rfl

end

/-! ## What says a type derives it -/

theorem bare_wrap (inner : Node) : (TypeExpr.wrap inner).bare = typeNode inner.bare := by
  rw [TypeExpr.wrap, Node.bare_spanning]
  rfl

theorem bare_arrayNode (element : Node) (close : Token) :
    (arrayNode element close).bare = arrayTypeNode element.bare := by
  rw [arrayNode, bare_wrap, Node.bare_spanning]
  rfl

theorem bare_unionNode (left right : Node) :
    (unionNode left right).bare = unionTypeNode left.bare right.bare := by
  rw [unionNode, bare_wrap, Node.bare_branch]
  rfl

/-- Tokens that say pairs of brackets are pairs of brackets. -/
theorem exists_bracketPairs (pairs : Nat) {read : List Token}
    (told : Says read
      (List.replicate pairs
        ([.leftBracket, .rightBracket] : List (Symbol keywords))).flatten) :
    ∃ form : BracketPairs, form.tokens = read ∧
      ∀ element, (form.extend element).bare = bracketed pairs element.bare := by
  induction pairs generalizing read with
  | zero =>
    cases told
    exact ⟨[], rfl, fun _ => rfl⟩
  | succ pairs ih =>
    rw [List.replicate_succ, List.flatten_cons] at told
    obtain ⟨opening, _, rfl, tellsOpening, saysOpening⟩ := told.of_cons
    obtain ⟨closing, _, rfl, tellsClosing, saysOthers⟩ := saysOpening.of_cons
    obtain ⟨form, tokens, extended⟩ := ih saysOthers
    refine ⟨(⟨opening, tellsOpening.kind⟩, ⟨closing, tellsClosing.kind⟩) :: form, ?_, ?_⟩
    · rw [← tokens]
      rfl
    · intro element
      rw [bracketed, ← bare_arrayNode element closing, ← extended]
      rfl

mutual

/-- Tokens that say a type derive it. -/
theorem TypeTree.exists_form : ∀ (tree : TypeTree keywords) {read : List Token},
    Says read tree.symbols →
    ∃ form : TypeForm, form.tokens = read ∧ form.node.bare = tree.node ∧ form.nest = tree.nest
  | .of first others, _, told => by
    obtain ⟨head, tail, rfl, saysFirst, saysOthers⟩ := told.of_append
    obtain ⟨array, arrayTokens, arrayNode, arrayInside⟩ := first.exists_form saysFirst
    obtain ⟨union, unionTokens, unionNode, unionInside⟩ := exists_unionForm others saysOthers
    refine ⟨.of array union, ?_, ?_, ?_⟩
    · rw [TypeForm.tokens, arrayTokens, unionTokens]
    · rw [TypeForm.node, unionNode, arrayNode, TypeTree.node]
    · rw [TypeForm.nest, arrayInside, unionInside, TypeTree.nest]

theorem exists_unionForm : ∀ (others : List (ArrayTree keywords)) {read : List Token},
    Says read (arraySymbols others) →
    ∃ form : UnionForm, form.tokens = read ∧
      (∀ left, (form.extend left).bare = unionOf left.bare others) ∧
      form.inside = arraysInside others
  | [], _, told => by
    cases told
    exact ⟨.last, rfl, fun _ => rfl, rfl⟩
  | next :: others, _, told => by
    obtain ⟨mark, more, rfl, tells, saysMore⟩ := told.of_cons
    obtain ⟨head, tail, rfl, saysNext, saysOthers⟩ := saysMore.of_append
    obtain ⟨array, arrayTokens, arrayNode, arrayInside⟩ := next.exists_form saysNext
    obtain ⟨union, unionTokens, unionNode, unionInside⟩ := exists_unionForm others saysOthers
    refine ⟨.bar ⟨mark, tells.kind⟩ array union, ?_, fun left => ?_, ?_⟩
    · rw [UnionForm.tokens, arrayTokens, unionTokens]
    · rw [UnionForm.extend, unionNode, bare_unionNode, arrayNode, unionOf]
    · rw [UnionForm.inside, arrayInside, unionInside, arraysInside]

theorem ArrayTree.exists_form : ∀ (tree : ArrayTree keywords) {read : List Token},
    Says read tree.symbols →
    ∃ form : ArrayForm, form.tokens = read ∧ form.node.bare = tree.node ∧
      form.inside = tree.inside
  | .of atom pairs, _, told => by
    obtain ⟨head, tail, rfl, saysAtom, saysPairs⟩ := told.of_append
    obtain ⟨inner, innerTokens, innerNode, inside⟩ := AtomTree.exists_form atom saysAtom
    obtain ⟨brackets, bracketTokens, extended⟩ := exists_bracketPairs pairs saysPairs
    refine ⟨.of inner brackets, ?_, ?_, inside⟩
    · rw [ArrayForm.tokens, innerTokens, bracketTokens]
    · rw [ArrayForm.node, extended, innerNode, ArrayTree.node]

theorem AtomTree.exists_form : ∀ (tree : AtomTree keywords) {read : List Token},
    Says read tree.symbols →
    ∃ form : AtomForm, form.tokens = read ∧ form.node.bare = tree.node ∧
      form.inside = tree.inside
  | .name word, _, told => by
    obtain ⟨token, rfl, tells⟩ := told.of_singleton
    refine ⟨.name ⟨token, tells.kind⟩, rfl, ?_, rfl⟩
    have value : token.value = word.text := tells.value
    rw [AtomForm.node, namedNode, bare_wrap, Node.bare_leaf, value]
    rfl
  | .generic word first others, _, told => by
    obtain ⟨name, _, rfl, tellsName, saysName⟩ := told.of_cons
    obtain ⟨opening, _, rfl, tellsOpening, saysOpening⟩ := saysName.of_cons
    obtain ⟨head, _, rfl, saysFirst, saysRest⟩ := saysOpening.of_append
    obtain ⟨tail, closing, rfl, saysOthers, tellsClosing⟩ := saysRest.of_concat
    obtain ⟨type, typeTokens, typeNode, typeNest⟩ := first.exists_form saysFirst
    obtain ⟨arguments, argumentTokens, argumentNodes, argumentNest⟩ :=
      exists_argumentsForm others saysOthers
    have value : name.value = word.text := tellsName.value
    refine ⟨.generic ⟨name, tellsName.kind⟩ ⟨opening, tellsOpening.kind⟩ type arguments
      ⟨closing, tellsClosing.kind⟩, ?_, ?_, ?_⟩
    · rw [AtomForm.tokens, typeTokens, argumentTokens]
    · rw [AtomForm.node, bare_wrap, Node.bare_spanning, List.map_cons, List.map_cons,
        Node.bare_leaf, typeNode, argumentNodes, value, AtomTree.node]
    · rw [AtomForm.inside, typeNest, argumentNest, AtomTree.inside]
  | .object properties, _, told => by
    obtain ⟨opening, body, closing, rfl, tellsOpening, saysBody, tellsClosing⟩ := told.of_enclosed
    obtain ⟨object, objectTokens, objectNodes, objectInside⟩ :=
      exists_objectForm properties saysBody
    -- a tree has no line ends, so the derivation gets none behind the brace
    refine ⟨.object ⟨opening, tellsOpening.kind⟩ [] object ⟨closing, tellsClosing.kind⟩,
      ?_, ?_, ?_⟩
    · rw [AtomForm.tokens, objectTokens]
      rfl
    · rw [AtomForm.node, bare_wrap, Node.bare_spanning, objectNodes, AtomTree.node]
    · rw [AtomForm.inside, objectInside, AtomTree.inside]

theorem exists_argumentsForm : ∀ (others : List (TypeTree keywords)) {read : List Token},
    Says read (argumentSymbols others) →
    ∃ form : ArgumentsForm, form.tokens = read ∧ form.nodes.map Node.bare = typeNodes others ∧
      form.inside = typesNest others
  | [], _, told => by
    cases told
    exact ⟨.last, rfl, rfl, rfl⟩
  | next :: others, _, told => by
    obtain ⟨mark, more, rfl, tells, saysMore⟩ := told.of_cons
    obtain ⟨head, tail, rfl, saysNext, saysOthers⟩ := saysMore.of_append
    obtain ⟨type, typeTokens, typeNode, typeNest⟩ := next.exists_form saysNext
    obtain ⟨arguments, argumentTokens, argumentNodes, argumentNest⟩ :=
      exists_argumentsForm others saysOthers
    refine ⟨.comma ⟨mark, tells.kind⟩ type arguments, ?_, ?_, ?_⟩
    · rw [ArgumentsForm.tokens, typeTokens, argumentTokens]
    · rw [ArgumentsForm.nodes, List.map_cons, typeNode, argumentNodes, typeNodes]
    · rw [ArgumentsForm.inside, typeNest, argumentNest, typesNest]

theorem PropertyTree.exists_form : ∀ (tree : PropertyTree keywords) {read : List Token},
    Says read tree.symbols →
    ∃ form : PropertyForm, form.tokens = read ∧ form.node.bare = tree.node ∧
      form.inside = tree.inside
  | .of word type, _, told => by
    obtain ⟨name, _, rfl, tellsName, saysName⟩ := told.of_cons
    obtain ⟨colon, _, rfl, tellsColon, saysColon⟩ := saysName.of_cons
    obtain ⟨form, formTokens, formNode, formNest⟩ := type.exists_form saysColon
    have value : name.value = word.text := tellsName.value
    refine ⟨.of ⟨name, tellsName.kind⟩ ⟨colon, tellsColon.kind⟩ form, ?_, ?_, formNest⟩
    · rw [PropertyForm.tokens, formTokens]
    · rw [PropertyForm.node, Node.bare_branch, List.map_cons, List.map_singleton, Node.bare_leaf,
        formNode, value, PropertyTree.node]

theorem exists_objectForm : ∀ (properties : List (PropertyTree keywords)) {read : List Token},
    Says read (propertiesSymbols properties) →
    ∃ form : ObjectForm, form.tokens = read ∧
      form.nodes.map Node.bare = propertyNodes properties ∧
      form.inside = propertiesInside properties
  | [], _, told => by
    cases told
    exact ⟨.empty, rfl, rfl, rfl⟩
  | first :: others, _, told => by
    obtain ⟨head, tail, rfl, saysFirst, saysOthers⟩ := told.of_append
    obtain ⟨property, propertyTokens, propertyNode, propertyInside⟩ := first.exists_form saysFirst
    obtain ⟨further, furtherTokens, furtherNodes, furtherInside⟩ :=
      exists_propertiesForm others saysOthers
    refine ⟨.properties property [] further, ?_, ?_, ?_⟩
    · rw [ObjectForm.tokens, propertyTokens, furtherTokens]
      rfl
    · rw [ObjectForm.nodes, List.map_cons, propertyNode, furtherNodes, propertyNodes]
    · rw [ObjectForm.inside, propertyInside, furtherInside, propertiesInside]

theorem exists_propertiesForm : ∀ (others : List (PropertyTree keywords)) {read : List Token},
    Says read (furtherSymbols others) →
    ∃ form : PropertiesForm, form.tokens = read ∧
      form.nodes.map Node.bare = propertyNodes others ∧ form.inside = propertiesInside others
  | [], _, told => by
    cases told
    exact ⟨.last, rfl, rfl, rfl⟩
  | next :: others, _, told => by
    obtain ⟨mark, more, rfl, tells, saysMore⟩ := told.of_cons
    obtain ⟨head, tail, rfl, saysNext, saysOthers⟩ := saysMore.of_append
    obtain ⟨property, propertyTokens, propertyNode, propertyInside⟩ := next.exists_form saysNext
    obtain ⟨further, furtherTokens, furtherNodes, furtherInside⟩ :=
      exists_propertiesForm others saysOthers
    refine ⟨.comma ⟨mark, tells.kind⟩ [] property [] further, ?_, ?_, ?_⟩
    · rw [PropertiesForm.tokens, propertyTokens, furtherTokens]
      rfl
    · rw [PropertiesForm.nodes, List.map_cons, propertyNode, furtherNodes, propertyNodes]
    · rw [PropertiesForm.inside, propertyInside, furtherInside, propertiesInside]

end

/-! ## Reading types -/

/-- The kinds of tokens that may stand behind a type. -/
def behindType : List TokenKind :=
  [.rightParen, .rightBrace, .comma, .leftBrace, .newline, .endOfInput, .returningWord, .greater,
    .resultArrow, .assign]

/-- Whether whatever tokens say some symbols derive a type with a tree, up to spans, and a
nesting. -/
def DerivesType (symbols : List (Symbol keywords)) (node : Node) (nest : Nat) : Prop :=
  ∀ read, Says read symbols →
    ∃ form : TypeForm, form.tokens = read ∧ form.node.bare = node ∧ form.nest = nest

/-- The rule of types reads what derives a type that there is room for. -/
theorem DerivesType.reads {symbols : List (Symbol keywords)} {node : Node} {nest room : Nat}
    (derives : DerivesType symbols node nest) (roomy : nest ≤ room) :
    TypeExpr.rule.ReadsSymbols room symbols behindType (·.bare = node) := by
  intro read rest told starts
  obtain ⟨form, rfl, bare, rfl⟩ := derives read told
  have avoids : AvoidsHead typeGoesOn rest := starts.avoidsHead (by decide)
  refine (form.reads_rule roomy avoids).mono (Nat.le_refl _) ?_
  rintro _ rfl
  exact bare

theorem TypeTree.derivesType (tree : TypeTree keywords) :
    DerivesType tree.symbols tree.node tree.nest :=
  fun _ told => tree.exists_form told

/-- The rule of types reads every type that there is room for. -/
theorem TypeTree.reads (tree : TypeTree keywords) {room : Nat} (roomy : tree.nest ≤ room) :
    TypeExpr.rule.ReadsSymbols room tree.symbols behindType (·.bare = tree.node) :=
  tree.derivesType.reads roomy

end DocGrammar
