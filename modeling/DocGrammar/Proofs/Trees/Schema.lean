import DocGrammar.Tree.Node
import Mathlib.Data.List.TakeWhile

/-! # The schema of document trees

Every kind of node prescribes the children that it holds, in order. The schema is a table: a kind
has one or more contents, a content is a row of slots, and a slot says which kinds may fill it, how
often, and under which field name. The two dialects share the type expressions and differ in the
rest.

* **`NodeKind.contents`** — the contents that a kind allows in a dialect.
* **`Slot.fill`** — whether some nodes fill a row of slots, one after the other.
* **`Node.IsPart`** — a tree that may be a child among others.
* **`Node.conforms`** — whether a tree has, at every node, children that its kind prescribes. -/

namespace DocGrammar

/-! ## Slots -/

/-- How many nodes a slot takes. -/
inductive Occurrence where
  /-- Exactly one. -/
  | one
  /-- One or none. -/
  | optional
  /-- Any number. -/
  | any
  /-- At least one. -/
  | several
  deriving DecidableEq, Repr

/-- A place for children of a node. -/
structure Slot where
  /-- How many children stand there. -/
  occurrence : Occurrence
  /-- The kinds that may stand there. -/
  kinds : List NodeKind
  /-- The field name of these children, if they have one. -/
  field : Option String
  /-- The kinds that these children may not hold themselves. -/
  without : List NodeKind
  deriving DecidableEq, Repr

namespace Slot

/-- The slot of exactly one child. -/
def one (kinds : List NodeKind) : Slot := ⟨.one, kinds, none, []⟩

/-- The slot of a child that may be missing. -/
def optional (kinds : List NodeKind) : Slot := ⟨.optional, kinds, none, []⟩

/-- The slot of any number of children. -/
def any (kinds : List NodeKind) : Slot := ⟨.any, kinds, none, []⟩

/-- The slot of one or more children. -/
def several (kinds : List NodeKind) : Slot := ⟨.several, kinds, none, []⟩

/-- The slot of children under a field name. -/
def named (slot : Slot) (name : String) : Slot := { slot with field := some name }

/-- The slot of children that do not hold some kinds. -/
def excluding (slot : Slot) (kinds : List NodeKind) : Slot := { slot with without := kinds }

/-- Whether a node may stand in a slot. -/
def admits (slot : Slot) (node : Node) : Bool :=
  slot.kinds.contains node.kind && node.field == slot.field &&
    node.children.all fun child => !slot.without.contains child.kind

/-- Whether the first of some nodes may stand in a slot. -/
def admitsFirst (slot : Slot) (nodes : List Node) : Bool :=
  (nodes.head?.map slot.admits).getD false

/-- Whether some nodes fill some slots, one after the other. -/
def fill : List Slot → List Node → Bool
  | [], nodes => nodes.isEmpty
  | slot :: slots, nodes =>
    match slot.occurrence with
    | .one => slot.admitsFirst nodes && fill slots nodes.tail
    | .optional => fill slots (if slot.admitsFirst nodes then nodes.tail else nodes)
    | .any => fill slots (nodes.dropWhile slot.admits)
    | .several => slot.admitsFirst nodes && fill slots (nodes.dropWhile slot.admits)

variable {slot : Slot} {slots : List Slot} {node : Node} {nodes : List Node}

/-- A node stands in a slot by its kind, its field name and the kinds that it holds. -/
theorem admits_iff : slot.admits node = true ↔
    node.kind ∈ slot.kinds ∧ node.field = slot.field ∧
      ∀ child ∈ node.children, child.kind ∉ slot.without := by
  simp [admits, and_assoc]

/-- A node under another field name does not stand in a slot. -/
theorem admits_of_field (other : node.field ≠ slot.field) : slot.admits node = false := by
  rw [Bool.eq_false_iff]
  exact fun admitted => other (admits_iff.mp admitted).2.1

/-- A node of an admitted kind stands in a slot that asks for nothing else. -/
theorem admits_of_kind {kinds : List NodeKind} {occurrence : Occurrence} {name : Option String}
    (kind : node.kind ∈ kinds) (field : node.field = name) :
    admits ⟨occurrence, kinds, name, []⟩ node = true :=
  admits_iff.mpr ⟨kind, field, fun _ _ => List.not_mem_nil⟩

@[simp] theorem admitsFirst_nil : slot.admitsFirst [] = false := rfl

@[simp] theorem admitsFirst_cons : slot.admitsFirst (node :: nodes) = slot.admits node := rfl

theorem fill_cons_one (only : slot.occurrence = .one) :
    fill (slot :: slots) nodes = (slot.admitsFirst nodes && fill slots nodes.tail) := by
  obtain ⟨occurrence, kinds, field, without⟩ := slot
  cases only
  rfl

theorem fill_cons_optional (may : slot.occurrence = .optional) : fill (slot :: slots) nodes =
    fill slots (if slot.admitsFirst nodes then nodes.tail else nodes) := by
  obtain ⟨occurrence, kinds, field, without⟩ := slot
  cases may
  rfl

theorem fill_cons_any (many : slot.occurrence = .any) :
    fill (slot :: slots) nodes = fill slots (nodes.dropWhile slot.admits) := by
  obtain ⟨occurrence, kinds, field, without⟩ := slot
  cases many
  rfl

theorem fill_cons_several (many : slot.occurrence = .several) : fill (slot :: slots) nodes =
    (slot.admitsFirst nodes && fill slots (nodes.dropWhile slot.admits)) := by
  obtain ⟨occurrence, kinds, field, without⟩ := slot
  cases many
  rfl

/-- A slot of exactly one child is filled by a node that it admits. -/
theorem fill_one (only : slot.occurrence = .one) (admitted : slot.admits node = true)
    (others : fill slots nodes = true) : fill (slot :: slots) (node :: nodes) = true := by
  rw [fill_cons_one only, admitsFirst_cons, admitted, List.tail_cons, others, Bool.and_self]

/-- A slot of a child that may be missing is filled by a node that it admits. -/
theorem fill_optional (may : slot.occurrence = .optional) (admitted : slot.admits node = true)
    (others : fill slots nodes = true) : fill (slot :: slots) (node :: nodes) = true := by
  rw [fill_cons_optional may, admitsFirst_cons, if_pos admitted, List.tail_cons, others]

/-- A slot of a child that may be missing stays empty before a node that it does not admit. -/
theorem fill_skip (may : slot.occurrence = .optional) (missing : slot.admitsFirst nodes = false)
    (others : fill slots nodes = true) : fill (slot :: slots) nodes = true := by
  rw [fill_cons_optional may, missing, if_neg Bool.false_ne_true, others]

/-- A child that may be missing fills its slot before nodes that the slot does not admit. -/
theorem fill_toList {own : Option Node} (may : slot.occurrence = .optional)
    (admitted : ∀ node ∈ own, slot.admits node = true) (missing : slot.admitsFirst nodes = false)
    (others : fill slots nodes = true) : fill (slot :: slots) (own.toList ++ nodes) = true := by
  cases own with
  | none => exact fill_skip may missing others
  | some node => exact fill_optional may (admitted node rfl) others

/-- A last slot for any number of children is filled by nodes that it admits. -/
theorem fill_any (many : slot.occurrence = .any)
    (admitted : ∀ node ∈ nodes, slot.admits node = true) : fill [slot] nodes = true := by
  rw [fill_cons_any many, List.dropWhile_eq_nil_iff.mpr admitted]
  rfl

/-- A last slot for one or more children is filled by nodes that it admits. -/
theorem fill_several (many : slot.occurrence = .several) (nonempty : nodes ≠ [])
    (admitted : ∀ node ∈ nodes, slot.admits node = true) : fill [slot] nodes = true := by
  obtain ⟨first, others, rfl⟩ := List.exists_cons_of_ne_nil nonempty
  have here : slot.admitsFirst (first :: others) = true := admitted first List.mem_cons_self
  rw [fill_cons_several many, here, List.dropWhile_eq_nil_iff.mpr admitted]
  rfl

/-- A slot for one child and a last one for several are filled by a node and one or more others. -/
theorem fill_one_several {last : Slot} (only : slot.occurrence = .one)
    (many : last.occurrence = .several) : fill [slot, last] nodes = true ↔
      ∃ first others, nodes = first :: others ∧ slot.admits first = true ∧ others ≠ [] ∧
        ∀ node ∈ others, last.admits node = true := by
  constructor
  · intro filled
    rw [fill_cons_one only] at filled
    cases nodes with
    | nil => cases filled
    | cons first others =>
      simp only [admitsFirst_cons, List.tail_cons, Bool.and_eq_true] at filled
      obtain ⟨here, rest⟩ := filled
      rw [fill_cons_several many] at rest
      cases others with
      | nil => cases rest
      | cons second others =>
        simp only [admitsFirst_cons, Bool.and_eq_true] at rest
        have behind : (second :: others).dropWhile last.admits = [] := List.isEmpty_iff.mp rest.2
        exact ⟨first, second :: others, rfl, here, List.cons_ne_nil _ _,
          List.dropWhile_eq_nil_iff.mp behind⟩
  · rintro ⟨first, others, rfl, here, nonempty, admitted⟩
    exact fill_one only here (fill_several many nonempty admitted)

end Slot

/-! ## Kinds that go together -/

/-- A grammar of this library, as far as the schemas of trees differ. -/
inductive Dialect where
  /-- Specs documents. -/
  | specs
  /-- Pseudo-kernel documents. -/
  | pseudo
  deriving DecidableEq, Repr

namespace NodeKind

/-- The alternatives of a type expression. -/
def typeAlternatives : List NodeKind :=
  [primitiveType, objectType, arrayType, unionType, genericType, identifier]

/-- The sections of a specs document besides the feature. -/
def bodySections : List NodeKind :=
  [intentSection, inputsSection, outputsSection, examplesSection, constraintsSection,
    invariantsSection]

/-- What a pseudo-kernel document holds besides its directive. -/
def documentParts : List NodeKind :=
  [markdownHeader, paragraph, contextLink, pseudoCodeBlock, codeBlock, mathBlock]

/-- The expressions of pseudo code but for calls of the system and property accesses. -/
def plainExpressions : List NodeKind :=
  [number, stringLiteral, boolean, identifier, scopedIdentifier, objectLiteral, arrayLiteral,
    rangeExpression, functionCall, methodCall, binaryExpression, pipeExpression, unaryExpression]

/-- The expressions of pseudo code. -/
def expressions : List NodeKind := systemFunctionCall :: propertyAccess :: plainExpressions

/-- The statements of pseudo code. -/
def statements : List NodeKind :=
  [functionDefinition, letBinding, assignment, ifStatement, returnStatement, systemFunctionCall,
    expressionStatement]

/-- The kinds that stand for a piece of the text and hold no children. -/
def isLeaf : NodeKind → Bool
  | identifier | primitiveType | grammarName | featureName | actionVerb | comparisonOperator
  | pattern | stringLiteral | number | booleanLiteral | boolean | markdownHeader | paragraph
  | linkTarget | linkDescription | languageIdentifier | codeLine | latexLine => true
  | _ => false

/-- The kinds whose nodes carry a text: leaves, and operators between or before expressions. -/
def carriesText (kind : NodeKind) : Bool :=
  kind.isLeaf || kind == binaryExpression || kind == unaryExpression

/-! ## Contents -/

/-- The contents of the kinds that both dialects share. -/
def sharedContents : NodeKind → List (List Slot)
  | shebang => [[.one [grammarName]]]
  | grammarName | identifier | primitiveType | stringLiteral | number => [[]]
  | typeSpecification => [[.one typeAlternatives]]
  | objectType => [[.any [propertyType]]]
  | propertyType => [[.one [identifier], .one [typeSpecification]]]
  | arrayType => [[(Slot.one [typeSpecification]).excluding [unionType]]]
  | unionType =>
    [[.one [typeSpecification], (Slot.one [typeSpecification]).excluding [unionType]]]
  | genericType => [[.one [identifier], .several [typeSpecification]]]
  | _ => []

/-- The contents of the kinds of specs documents. -/
def specsContents : NodeKind → List (List Slot)
  | sourceFile => [[.optional [shebang], .optional [featureSection], .any bodySections]]
  | featureSection => [[.one [featureName]]]
  | intentSection => [[.one [intentDeclaration]]]
  | intentDeclaration =>
    [[.one [actionVerb], .one [subject], .one [parameters], .one [returnType]]]
  | subject | parameters | returnType | errorResult => [[.one [identifier]]]
  | inputsSection => [[.any [inputSpec]]]
  | inputSpec => [[.one [identifier], .one [typeSpecification]]]
  | outputsSection => [[.any [outputSpec]]]
  | outputSpec =>
    [[(Slot.one [identifier]).named "name", (Slot.one [typeSpecification]).named "type"],
      [(Slot.one [identifier]).named "name", (Slot.one [errorTypes]).named "errors"]]
  | errorTypes | propertyAccess => [[.several [identifier]]]
  | examplesSection => [[.any [exampleSpec]]]
  | exampleSpec => [[.one [functionCall], .one [expectedResult]]]
  | functionCall => [[.one [identifier], .any [argument]]]
  | argument => [[.one [identifier, stringLiteral, number, objectLiteral]]]
  | objectLiteral => [[.any [propertyAssignment]]]
  | propertyAssignment => [[.one [identifier], .one [value]]]
  | expectedResult =>
    [[.one [stringLiteral, number, booleanLiteral, identifier, errorResult]]]
  | constraintsSection => [[.any [constraintSpec]]]
  | constraintSpec => [[.one [comparison, rangeConstraint, formatConstraint]]]
  | comparison => [[.one [propertyAccess], .one [comparisonOperator], .one [value]]]
  | rangeConstraint => [[.one [propertyAccess], .one [range]]]
  | range => [[.one [number], .one [number]], [.one [value], .one [value]]]
  | formatConstraint => [[.one [propertyAccess], .one [pattern]]]
  | invariantsSection => [[.any [invariantSpec]]]
  | invariantSpec =>
    [[.one [functionCall, propertyAccess, booleanLiteral],
      .one [functionCall, propertyAccess, booleanLiteral]]]
  | value => [[.one [identifier, stringLiteral, number, booleanLiteral]]]
  | featureName | actionVerb | comparisonOperator | pattern | booleanLiteral => [[]]
  | kind => sharedContents kind

/-- The contents of the kinds of pseudo-kernel documents. -/
def pseudoContents : NodeKind → List (List Slot)
  | sourceFile => [[.optional [shebang], .any documentParts]]
  | contextLink => [[.one [linkTarget], .optional [linkDescription]]]
  | pseudoCodeBlock | block => [[.any statements]]
  | codeBlock => [[.optional [languageIdentifier], .any [codeLine]]]
  | mathBlock => [[.any [latexLine]]]
  | functionDefinition =>
    [[(Slot.one [identifier]).named "name", (Slot.optional [parameterList]).named "parameters",
      (Slot.optional [typeSpecification]).named "return_type", (Slot.one [block]).named "body"]]
  | parameterList => [[.several [parameter]]]
  | parameter => [[.one [identifier], .one [typeSpecification]]]
  | letBinding | assignment => [[.one [identifier], .one expressions]]
  | ifStatement =>
    [[(Slot.one expressions).named "condition", (Slot.one [block]).named "consequence",
      (Slot.optional [block, ifStatement]).named "alternative"]]
  | returnStatement => [[.optional expressions]]
  | systemFunctionCall => [[.one [identifier], .optional [argumentList]]]
  | expressionStatement => [[.one (propertyAccess :: plainExpressions)]]
  | argumentList => [[.several expressions]]
  | functionCall => [[.one [identifier, scopedIdentifier], .optional [argumentList]]]
  | methodCall => [[.one expressions, .one [identifier], .optional [argumentList]]]
  | propertyAccess => [[.one (systemFunctionCall :: plainExpressions), .several [identifier]]]
  | scopedIdentifier => [[.one [identifier], .several [identifier]]]
  | objectLiteral => [[.any [objectProperty]]]
  | objectProperty => [[.one [identifier, stringLiteral], .one expressions]]
  | arrayLiteral => [[.any expressions]]
  | rangeExpression | binaryExpression | pipeExpression =>
    [[.one expressions, .one expressions]]
  | unaryExpression => [[.one expressions]]
  | boolean | markdownHeader | paragraph | linkTarget | linkDescription | languageIdentifier
  | codeLine | latexLine => [[]]
  | kind => sharedContents kind

/-- The contents that a kind allows in a dialect, none if the dialect does not have it. -/
def contents (kind : NodeKind) : Dialect → List (List Slot)
  | .specs => kind.specsContents
  | .pseudo => kind.pseudoContents

end NodeKind

/-! ## Trees that conform -/

namespace Node

/-- Whether a node carries a text exactly if its kind does, and has children that its kind
prescribes. -/
def fits (dialect : Dialect) (node : Node) : Bool :=
  node.text.isSome == node.kind.carriesText &&
    (node.kind.contents dialect).any fun slots => Slot.fill slots node.children

/-- Whether a tree conforms to the schema at every node. -/
def conforms (dialect : Dialect) (tree : Node) : Bool :=
  tree.walk.all (fits dialect)

variable {dialect : Dialect} {node tree : Node}

theorem mem_walkAll (trees : List Node) :
    node ∈ walkAll trees ↔ ∃ tree ∈ trees, node ∈ tree.walk := by
  induction trees with
  | nil => simp [walkAll]
  | cons tree others ih =>
    rw [walkAll, List.mem_append, ih]
    simp only [List.mem_cons, exists_eq_or_imp]

/-- A walk meets the root of a tree and what it meets below. -/
theorem mem_walk : node ∈ tree.walk ↔ node = tree ∨ ∃ child ∈ tree.children, node ∈ child.walk := by
  obtain ⟨kind, children, text, field, span⟩ := tree
  rw [walk, List.mem_cons, mem_walkAll]

/-- What holds of every node of a tree holds of the root and of every node below. -/
theorem forall_mem_walk {good : Node → Prop} : (∀ node ∈ tree.walk, good node) ↔
    good tree ∧ ∀ child ∈ tree.children, ∀ node ∈ child.walk, good node := by
  constructor
  · intro all
    exact ⟨all tree (mem_walk.mpr (.inl rfl)), fun child member node inside =>
      all node (mem_walk.mpr (.inr ⟨child, member, inside⟩))⟩
  · rintro ⟨root, below⟩ node member
    rcases mem_walk.mp member with rfl | ⟨child, inChildren, inside⟩
    · exact root
    · exact below child inChildren node inside

/-- A tree conforms if its root fits and the trees below it conform. -/
theorem conforms_iff : tree.conforms dialect = true ↔
    tree.fits dialect = true ∧ ∀ child ∈ tree.children, child.conforms dialect = true := by
  simp only [conforms, List.all_eq_true]
  exact forall_mem_walk

/-- What a kind prescribes is what a node of the kind holds. -/
theorem fits_of_mem {kind : NodeKind} {children : List Node} {text field : Option String}
    {span : Option Span} {slots : List Slot} (texts : text.isSome = kind.carriesText)
    (member : slots ∈ kind.contents dialect) (filled : Slot.fill slots children = true) :
    fits dialect ⟨kind, children, text, field, span⟩ = true := by
  rw [fits, Bool.and_eq_true, beq_iff_eq, List.any_eq_true]
  exact ⟨texts, slots, member, filled⟩

/-- A tree of some kinds conforms and stands under no field name. -/
structure IsPart (dialect : Dialect) (kinds : List NodeKind) (tree : Node) : Prop where
  /-- It conforms. -/
  conforms : tree.conforms dialect = true
  /-- It is of the kinds. -/
  kind : tree.kind ∈ kinds
  /-- It has no field name. -/
  field : tree.field = none

/-- A part stands in a slot for its kinds. -/
theorem IsPart.admits {kinds : List NodeKind} {occurrence : Occurrence}
    (isPart : tree.IsPart dialect kinds) : Slot.admits ⟨occurrence, kinds, none, []⟩ tree = true :=
  Slot.admits_of_kind isPart.kind isPart.field

theorem IsPart.mono {kinds more : List NodeKind} (isPart : tree.IsPart dialect kinds)
    (subset : kinds ⊆ more) : tree.IsPart dialect more :=
  ⟨isPart.conforms, subset isPart.kind, isPart.field⟩

/-- Parts do not stand in a slot for other kinds. -/
theorem admitsFirst_of_isPart {kinds : List NodeKind} {nodes : List Node} {slot : Slot}
    (parts : ∀ node ∈ nodes, node.IsPart dialect kinds)
    (others : ∀ kind ∈ kinds, kind ∉ slot.kinds) : slot.admitsFirst nodes = false := by
  cases nodes with
  | nil => rfl
  | cons node nodes =>
    rw [Slot.admitsFirst_cons, Bool.eq_false_iff]
    intro admitted
    exact others _ (parts node List.mem_cons_self).kind (Slot.admits_iff.mp admitted).1

/-- The field name under which a tree stands says nothing about the tree. -/
@[simp] theorem conforms_withField (name : String) :
    (tree.withField name).conforms dialect = tree.conforms dialect := by
  rw [Bool.eq_iff_iff, conforms_iff, conforms_iff]
  rfl

end Node

end DocGrammar
