import DocGrammar.Proofs.Tokens.Lines
import DocGrammar.Proofs.Types.Syntax
import DocGrammar.Specs.Body

/-! # Lines of specs sections as trees

The lines that the sections of a specs document may hold, as trees of their own. A tree has the
symbols that write it down on a line and the node that it becomes.

* **`SpecTree`** — the lines of each kind of section.
* **`SpecTree.symbols`**, **`SpecTree.node`** — how a line is written and what it becomes.
* **`SpecTree.isWritable`** — every line can be written down. -/

namespace DocGrammar

/-! ## Words and literals -/

/-- A name in a specs section. -/
abbrev SpecName : Type := Identifier .specs

/-- A string whose control characters have escapes. -/
structure SpecString where
  /-- The string. -/
  text : String
  /-- Escapes stand for the characters that are forbidden in a document. -/
  isEscaped : ∀ char ∈ text.toList, isForbidden char = true → char = '\n' ∨ char = Char.ofNat 0

/-- A pattern without control characters. -/
structure SpecPattern where
  /-- The pattern. -/
  content : PatternText
  /-- It holds no character that is forbidden in a document. -/
  isClean : isCleanText content.text.toList = true

/-- A number with or without a minus sign. -/
structure SignedNumeral where
  /-- Whether the sign is there. -/
  isNegative : Bool
  /-- The number. -/
  numeral : Numeral

namespace SignedNumeral

/-- The symbols of a number. -/
def symbols : SignedNumeral → List (Symbol .specs)
  | ⟨false, numeral⟩ => [.number numeral]
  | ⟨true, numeral⟩ => [.mark .minus, .number numeral]

/-- The node of a number. -/
def node : SignedNumeral → Node
  | ⟨false, numeral⟩ => .plainLeaf .number (String.ofList numeral.chars)
  | ⟨true, numeral⟩ => .plainLeaf .number ("-" ++ String.ofList numeral.chars)

end SignedNumeral

theorem kindOf_truth (value : Bool) :
    KeywordTable.specs.kindOf (cond value "true" "false") = .booleanLit := by
  cases value <;> decide

/-- The symbol of a truth value. -/
def truthSymbol : Bool → Symbol .specs
  | true => .word .booleanLit "true" (isWord_truth true) (kindOf_truth true)
  | false => .word .booleanLit "false" (isWord_truth false) (kindOf_truth false)

/-- The node of a truth value. -/
def truthNode (value : Bool) : Node := .plainLeaf .booleanLiteral (truthSymbol value).value

/-- The node of a name. -/
def SpecName.node (name : SpecName) : Node := .plainLeaf .identifier name.text

/-! ## Chains of names -/

/-- A name with others behind it. -/
structure NameChain where
  /-- The first name. -/
  first : SpecName
  /-- The others. -/
  others : List SpecName

namespace NameChain

/-- The symbols of a chain with a mark before each name but the first. -/
def symbols (mark : Symbol .specs) (chain : NameChain) : List (Symbol .specs) :=
  .name chain.first :: chain.others.flatMap fun name => [mark, .name name]

/-- The nodes of the names. -/
def nodes (chain : NameChain) : List Node :=
  chain.first.node :: chain.others.map SpecName.node

/-- The node of the access to a property through others. -/
def accessNode (chain : NameChain) : Node := .plain .propertyAccess chain.nodes

end NameChain

/-- The point between the names of a property access. -/
def pointSymbol : Symbol .specs := .dot

/-- The bar between the names of errors. -/
def barSymbol : Symbol .specs := .pipe

/-! ## Values and calls -/

/-- A name, a string or a number. -/
inductive LiteralTree where
  /-- A name. -/
  | name (word : SpecName)
  /-- A string. -/
  | string (content : SpecString)
  /-- A number. -/
  | number (numeral : SignedNumeral)

/-- The symbols of a literal. -/
def LiteralTree.symbols : LiteralTree → List (Symbol .specs)
  | name word => [.name word]
  | string content => [.string content.text]
  | number numeral => numeral.symbols

/-- The node of a literal. -/
def LiteralTree.node : LiteralTree → Node
  | name word => word.node
  | string content => .plainLeaf .stringLiteral content.text
  | number numeral => numeral.node

/-- A value. -/
inductive ValueTree where
  /-- A name, a string or a number. -/
  | literal (tree : LiteralTree)
  /-- A truth value. -/
  | boolean (value : Bool)

/-- The symbols of a value. -/
def ValueTree.symbols : ValueTree → List (Symbol .specs)
  | literal tree => tree.symbols
  | boolean value => [truthSymbol value]

/-- The node of what a value is. -/
def ValueTree.inner : ValueTree → Node
  | literal tree => tree.node
  | boolean value => truthNode value

/-- The node of a value. -/
def ValueTree.node (tree : ValueTree) : Node := .plain .value [tree.inner]

/-- A property of an object in an example: a name and a value. -/
structure AssignmentTree where
  /-- The name. -/
  name : SpecName
  /-- The value. -/
  value : ValueTree

/-- The symbols of a property. -/
def AssignmentTree.symbols (tree : AssignmentTree) : List (Symbol .specs) :=
  .name tree.name :: .colon :: tree.value.symbols

/-- The node of a property. -/
def AssignmentTree.node (tree : AssignmentTree) : Node :=
  .plain .propertyAssignment [tree.name.node, tree.value.node]

/-- An argument of a call. -/
inductive ArgumentTree where
  /-- A name, a string or a number. -/
  | literal (tree : LiteralTree)
  /-- An object. -/
  | object (properties : List AssignmentTree)

/-- The symbols of an argument. -/
def ArgumentTree.symbols : ArgumentTree → List (Symbol .specs)
  | literal tree => tree.symbols
  | object properties =>
    .leftBrace ::
      (separated .comma (properties.map AssignmentTree.symbols) ++ [.rightBrace])

/-- The node of what an argument is. -/
def ArgumentTree.inner : ArgumentTree → Node
  | literal tree => tree.node
  | object properties => .plain .objectLiteral (properties.map AssignmentTree.node)

/-- The node of an argument. -/
def ArgumentTree.node (tree : ArgumentTree) : Node := .plain .argument [tree.inner]

/-- A call of a function. -/
structure CallTree where
  /-- The name of the function. -/
  name : SpecName
  /-- The arguments. -/
  arguments : List ArgumentTree

/-- The symbols of a call. -/
def CallTree.symbols (tree : CallTree) : List (Symbol .specs) :=
  .name tree.name :: .leftParen ::
    (separated .comma (tree.arguments.map ArgumentTree.symbols) ++ [.rightParen])

/-- The node of a call. -/
def CallTree.node (tree : CallTree) : Node :=
  .plain .functionCall (tree.name.node :: tree.arguments.map ArgumentTree.node)

/-! ## Parts of lines -/

/-- The verb of an intent. -/
structure Verb where
  /-- The word. -/
  word : SpecName
  /-- It is a capital letter followed by capital letters and underscores. -/
  isVerb : SpecLine.isVerb word.text = true

/-- The word before the parameters of an intent. -/
def withSymbol : Symbol .specs := .word .withWord "WITH" (by decide +kernel) (by decide +kernel)

/-- The word before the result of an intent. -/
def returningSymbol : Symbol .specs :=
  .word .returningWord "RETURNING" (by decide +kernel) (by decide +kernel)

/-- The mark of a successful output. -/
def successName : SpecName := ⟨SpecLine.successWord, by decide +kernel, by decide +kernel⟩

/-- The mark of a failure output. -/
def failureName : SpecName := ⟨SpecLine.failureWord, by decide +kernel, by decide +kernel⟩

/-- The word that announces an error. -/
def errorName : SpecName := ⟨SpecLine.errorWord, by decide +kernel, by decide +kernel⟩

/-- The result of an example call. -/
inductive ResultTree where
  /-- A value. -/
  | value (tree : ValueTree)
  /-- An error. -/
  | error (name : SpecName)

/-- The symbols of a result. -/
def ResultTree.symbols : ResultTree → List (Symbol .specs)
  | value tree => tree.symbols
  | error name => [.name errorName, .colon, .name name]

/-- The node of a result. -/
def ResultTree.node : ResultTree → Node
  | value tree => .plain .expectedResult [tree.inner]
  | error name => .plain .expectedResult [.plain .errorResult [name.node]]

/-- A comparison operator. -/
structure ComparisonSign where
  /-- The kind of its token. -/
  kind : TokenKind
  /-- Tokens of that kind compare. -/
  isComparison : SpecLine.isComparison kind = true

namespace ComparisonSign

theorem isMark (sign : ComparisonSign) : markChars sign.kind ≠ [] := by
  obtain ⟨kind, compares⟩ := sign
  cases kind <;> first
    | exact List.cons_ne_nil _ _
    | exact Bool.noConfusion compares

theorem kind_ne_slash (sign : ComparisonSign) : sign.kind ≠ .slash := by
  intro same
  have compares := sign.isComparison
  rw [same] at compares
  exact Bool.noConfusion compares

/-- The symbol of a comparison operator. -/
def symbol (sign : ComparisonSign) : Symbol .specs := .mark sign.kind sign.isMark

end ComparisonSign

/-- The word before a range. -/
def inSymbol : Symbol .specs := .word .inWord "IN" (by decide +kernel) (by decide +kernel)

/-- The word before a pattern. -/
def matchesSymbol : Symbol .specs :=
  .word .matchesWord "MATCHES" (by decide +kernel) (by decide +kernel)

/-- A range. -/
inductive RangeTree where
  /-- Two values between brackets. -/
  | brackets (low high : ValueTree)
  /-- Two numbers with dots between them. -/
  | dots (low high : SignedNumeral)

/-- The symbols of a range. -/
def RangeTree.symbols : RangeTree → List (Symbol .specs)
  | brackets low high =>
    .leftBracket :: (low.symbols ++ .comma :: (high.symbols ++ [.rightBracket]))
  | dots low high => low.symbols ++ .mark .dotDot :: high.symbols

/-- The node of a range. -/
def RangeTree.node : RangeTree → Node
  | brackets low high => .plain .range [low.node, high.node]
  | dots low high => .plain .range [low.node, high.node]

/-- A side of an invariant. -/
inductive SideTree where
  /-- A truth value. -/
  | boolean (value : Bool)
  /-- A call. -/
  | call (tree : CallTree)
  /-- The access to a property. -/
  | access (chain : NameChain)

/-- The symbols of a side. -/
def SideTree.symbols : SideTree → List (Symbol .specs)
  | boolean value => [truthSymbol value]
  | call tree => tree.symbols
  | access chain => chain.symbols pointSymbol

/-- The node of a side. -/
def SideTree.node : SideTree → Node
  | boolean value => truthNode value
  | call tree => tree.node
  | access chain => chain.accessNode

/-! ## Lines -/

/-- A line of a section. -/
inductive SpecTree : SpecSection → Type where
  /-- The declaration of an intent. -/
  | intent (verb : Verb) (subject parameters result : SpecName) : SpecTree .intent
  /-- A named input and its type. -/
  | input (name : SpecName) (type : TypeTree .specs) : SpecTree .inputs
  /-- A successful output and its type. -/
  | success (name : SpecName) (type : TypeTree .specs) : SpecTree .outputs
  /-- A failure output and its errors. -/
  | failure (name : SpecName) (errors : NameChain) : SpecTree .outputs
  /-- A call and its result. -/
  | exampleCall (call : CallTree) (result : ResultTree) : SpecTree .examples
  /-- The comparison of a property with a value. -/
  | comparison (target : NameChain) (sign : ComparisonSign) (value : ValueTree) :
      SpecTree .constraints
  /-- The range of a property. -/
  | within (target : NameChain) (range : RangeTree) : SpecTree .constraints
  /-- The pattern of a property. -/
  | format (target : NameChain) (pattern : SpecPattern) : SpecTree .constraints
  /-- Two equivalent statements. -/
  | invariant (left right : SideTree) : SpecTree .invariants

namespace SpecTree

variable {part : SpecSection}

/-- The symbols of a line. -/
def symbols : SpecTree part → List (Symbol .specs)
  | intent verb subject parameters result =>
    [.name verb.word, .name subject, withSymbol, .name parameters, returningSymbol, .name result]
  | input name type => .name name :: .colon :: type.symbols
  | success name type =>
    .name successName :: .colon :: .name name :: .colon :: type.symbols
  | failure name errors =>
    .name failureName :: .colon :: .name name :: .assign :: errors.symbols barSymbol
  | exampleCall call result => call.symbols ++ .mark .resultArrow :: result.symbols
  | comparison target sign value => target.symbols pointSymbol ++ sign.symbol :: value.symbols
  | within target range => target.symbols pointSymbol ++ inSymbol :: range.symbols
  | format target pattern =>
    target.symbols pointSymbol ++ [matchesSymbol, .pattern pattern.content]
  | invariant left right => left.symbols ++ .mark .iff :: right.symbols

/-- The node of a line. -/
def node : SpecTree part → Node
  | intent verb subject parameters result =>
    .plain .intentDeclaration [.plainLeaf .actionVerb verb.word.text,
      .plain .subject [subject.node], .plain .parameters [parameters.node],
      .plain .returnType [result.node]]
  | input name type => .plain .inputSpec [name.node, type.node]
  | success name type =>
    .plain .outputSpec [name.node.withField "name", type.node.withField "type"]
  | failure name errors =>
    .plain .outputSpec [name.node.withField "name",
      (Node.plain .errorTypes errors.nodes).withField "errors"]
  | exampleCall call result => .plain .exampleSpec [call.node, result.node]
  | comparison target sign value =>
    .plain .constraintSpec [.plain .comparison [target.accessNode,
      .plainLeaf .comparisonOperator sign.symbol.value, value.node]]
  | within target range =>
    .plain .constraintSpec [.plain .rangeConstraint [target.accessNode, range.node]]
  | format target pattern =>
    .plain .constraintSpec [.plain .formatConstraint [target.accessNode,
      .plainLeaf .pattern pattern.content.text]]
  | invariant left right => .plain .invariantSpec [left.node, right.node]

/-- The nesting of a line: that of the type in it. -/
def nest : SpecTree part → Nat
  | input _ type => type.nest
  | success _ type => type.nest
  | _ => 0

/-- A line is nested at most as deep as it has symbols. -/
theorem nest_le_weight (tree : SpecTree part) : tree.nest ≤ weight tree.symbols := by
  cases tree with
  | input name type =>
    have inner := type.nest_le_weight
    simp only [nest, symbols, weight_name, weight_mark]
    omega
  | success name type =>
    have inner := type.nest_le_weight
    simp only [nest, symbols, weight_name, weight_mark]
    omega
  | _ => exact Nat.zero_le _

end SpecTree

/-! ## Lines can be written -/

theorem TypeTree.isWritable (tree : TypeTree .specs) : IsWritable tree.symbols :=
  ⟨fun _ member => Symbol.isClean_of_noLiteral (tree.noLiteral _ member), tree.isPhrase.fits⟩

theorem SignedNumeral.isWritable (numeral : SignedNumeral) : IsWritable numeral.symbols := by
  have digits : IsWritable [(.number numeral.numeral : Symbol .specs)] :=
    isWritable_nil.cons (Symbol.isClean_number _) TokenKind.noConfusion TokenKind.noConfusion
  obtain ⟨isNegative, digitsOf⟩ := numeral
  cases isNegative with
  | false => exact digits
  | true => exact digits.mark TokenKind.noConfusion

theorem SpecString.isWritable (content : SpecString) :
    IsWritable [(.string content.text : Symbol .specs)] := by
  refine isWritable_nil.cons ?_ TokenKind.noConfusion TokenKind.noConfusion
  show isCleanText ('"' :: spelledBody content.text.toList) = true
  rw [isCleanText_cons, isCleanText_spelledBody content.isEscaped]
  decide

theorem isWritable_truthSymbol (value : Bool) : IsWritable [truthSymbol value] := by
  cases value <;>
    exact isWritable_nil.cons (Symbol.isClean_word _ _ _ _) TokenKind.noConfusion
      TokenKind.noConfusion

theorem NameChain.isWritable (chain : NameChain) {mark : Symbol .specs}
    (clean : mark.isClean = true) (slash : mark.kind ≠ .slash) (pattern : mark.kind ≠ .patternLit) :
    IsWritable (chain.symbols mark) := by
  obtain ⟨first, others⟩ := chain
  refine IsWritable.name ?_ first
  show IsWritable (others.flatMap fun name => [mark, .name name])
  induction others with
  | nil => exact isWritable_nil
  | cons next others ih =>
    rw [List.flatMap_cons]
    have pair : IsWritable [mark, .name next] :=
      (isWritable_nil.name next).cons clean slash pattern
    exact pair.append ih

theorem NameChain.isWritable_access (chain : NameChain) :
    IsWritable (chain.symbols pointSymbol) :=
  chain.isWritable (Symbol.isClean_mark _ _) TokenKind.noConfusion TokenKind.noConfusion

theorem LiteralTree.isWritable (tree : LiteralTree) : IsWritable tree.symbols := by
  cases tree with
  | name word => exact isWritable_nil.name word
  | string content => exact content.isWritable
  | number numeral => exact numeral.isWritable

theorem ValueTree.isWritable (tree : ValueTree) : IsWritable tree.symbols := by
  cases tree with
  | literal tree => exact tree.isWritable
  | boolean value => exact isWritable_truthSymbol value

theorem AssignmentTree.isWritable (tree : AssignmentTree) : IsWritable tree.symbols :=
  (tree.value.isWritable.mark TokenKind.noConfusion).name tree.name

/-- What ends with a closing mark can be written. -/
theorem isWritable_closed {symbols : List (Symbol .specs)} {kind : TokenKind}
    {isMark : markChars kind ≠ []} (inner : IsWritable symbols) (slash : kind ≠ .slash) :
    IsWritable (symbols ++ [.mark kind isMark]) :=
  inner.append (isWritable_nil.mark slash)

theorem ArgumentTree.isWritable (tree : ArgumentTree) : IsWritable tree.symbols := by
  cases tree with
  | literal tree => exact tree.isWritable
  | object properties =>
    have inner : IsWritable (separated .comma (properties.map AssignmentTree.symbols)) := by
      refine isWritable_separated fun item member => ?_
      obtain ⟨tree, _, rfl⟩ := List.mem_map.mp member
      exact tree.isWritable
    exact (isWritable_closed inner TokenKind.noConfusion).mark TokenKind.noConfusion

theorem CallTree.isWritable (tree : CallTree) : IsWritable tree.symbols := by
  have inner : IsWritable (separated .comma (tree.arguments.map ArgumentTree.symbols)) := by
    refine isWritable_separated fun item member => ?_
    obtain ⟨argument, _, rfl⟩ := List.mem_map.mp member
    exact argument.isWritable
  exact ((isWritable_closed inner TokenKind.noConfusion).mark TokenKind.noConfusion).name tree.name

theorem ResultTree.isWritable (tree : ResultTree) : IsWritable tree.symbols := by
  cases tree with
  | value tree => exact tree.isWritable
  | error name => exact ((isWritable_nil.name name).mark TokenKind.noConfusion).name errorName

theorem RangeTree.isWritable (tree : RangeTree) : IsWritable tree.symbols := by
  cases tree with
  | brackets low high =>
    have behind : IsWritable (.comma :: (high.symbols ++ [.rightBracket])) :=
      (isWritable_closed high.isWritable TokenKind.noConfusion).mark TokenKind.noConfusion
    exact (low.isWritable.append behind).mark TokenKind.noConfusion
  | dots low high =>
    exact low.isWritable.append (high.isWritable.mark TokenKind.noConfusion)

theorem SideTree.isWritable (tree : SideTree) : IsWritable tree.symbols := by
  cases tree with
  | boolean value => exact isWritable_truthSymbol value
  | call tree => exact tree.isWritable
  | access chain => exact chain.isWritable_access

namespace SpecTree

variable {part : SpecSection}

/-- A pattern can be written behind the word that calls for it. -/
theorem isWritable_pattern (pattern : SpecPattern) :
    IsWritable [matchesSymbol, .pattern pattern.content] := by
  refine ⟨fun symbol member => ?_, fun state => ⟨⟨?_, ?_⟩, ⟨?_, ?_⟩, trivial⟩⟩
  · simp only [List.mem_cons, List.not_mem_nil, or_false] at member
    rcases member with rfl | rfl
    · exact Symbol.isClean_word _ _ _ _
    · show isCleanText ('/' :: pattern.content.text.toList ++ ['/']) = true
      rw [isCleanText_append, isCleanText_cons, pattern.isClean]
      decide
  · exact TokenKind.noConfusion
  · exact TokenKind.noConfusion
  · exact TokenKind.noConfusion
  · intro _
    rw [CodeState.past_of_noFeed state rfl]
    rfl

/-- Every line can be written. -/
theorem isWritable (tree : SpecTree part) : IsWritable tree.symbols := by
  cases tree with
  | intent verb subject parameters result =>
    have behind : IsWritable [.name parameters, returningSymbol, .name result] :=
      ((isWritable_nil.name result).cons (Symbol.isClean_word _ _ _ _) TokenKind.noConfusion
        TokenKind.noConfusion).name parameters
    exact ((behind.cons (Symbol.isClean_word _ _ _ _) TokenKind.noConfusion
      TokenKind.noConfusion).name subject).name verb.word
  | input name type => exact (type.isWritable.mark TokenKind.noConfusion).name name
  | success name type =>
    exact (((type.isWritable.mark TokenKind.noConfusion).name name).mark
      TokenKind.noConfusion).name successName
  | failure name errors =>
    have bars : IsWritable (errors.symbols barSymbol) :=
      errors.isWritable (Symbol.isClean_mark _ _) TokenKind.noConfusion TokenKind.noConfusion
    exact (((bars.mark TokenKind.noConfusion).name name).mark TokenKind.noConfusion).name
      failureName
  | exampleCall call result =>
    exact call.isWritable.append (result.isWritable.mark TokenKind.noConfusion)
  | comparison target sign value =>
    exact target.isWritable_access.append (value.isWritable.mark sign.kind_ne_slash)
  | within target range =>
    exact target.isWritable_access.append (range.isWritable.cons (Symbol.isClean_word _ _ _ _)
      TokenKind.noConfusion TokenKind.noConfusion)
  | format target pattern => exact target.isWritable_access.append (isWritable_pattern pattern)
  | invariant left right =>
    exact left.isWritable.append (right.isWritable.mark TokenKind.noConfusion)

end SpecTree

end DocGrammar
