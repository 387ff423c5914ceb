import DocGrammar.Proofs.Types.Syntax
import DocGrammar.Pseudo.Expression

/-! # Expressions as trees

The expressions of pseudo code as trees, with the symbols that write them down. Parentheses stand
only where an operand binds less tightly than its operator demands.

* **`ExpressionTree`** — the expressions.
* **`ExpressionTree.symbols`** — how an expression is written.
* **`ExpressionTree.node`** — the node that it becomes.
* **`ExpressionTree.isValue`** — an expression is written on one line and ends with a value. -/

namespace DocGrammar

/-! ## Names and operators -/

/-- A name in pseudo code. -/
abbrev Name : Type := Identifier .pseudo

/-- A name behind the names of its scopes. -/
structure Path where
  /-- The outermost name. -/
  first : Name
  /-- The names behind it. -/
  others : List Name

/-- A unary operator. -/
inductive UnaryOperator where
  /-- The negation of a truth value. -/
  | not
  /-- The negation of a number. -/
  | minus
  deriving DecidableEq, Repr

/-- The kind of the token of a unary operator. -/
def UnaryOperator.kind : UnaryOperator → TokenKind
  | not => .bang
  | minus => .minus

theorem UnaryOperator.isMark (operator : UnaryOperator) : markChars operator.kind ≠ [] := by
  cases operator <;> decide

/-- The token of an infix operator has characters, can be read behind a value, and its operator
binds more tightly to the right than to the left. -/
theorem infixPower?_facts {kind : TokenKind} {power : BindingPower}
    (known : infixPower? kind = some power) : markChars kind ≠ [] ∧
      (kind = .slash ∨ isPlaced kind = false) ∧ power.right = power.left + 1 ∧ power.left ≤ 13 := by
  cases kind <;> first
    | (simp only [infixPower?, reduceCtorEq] at known; done)
    | (obtain rfl := Option.some.inj known
       exact ⟨List.cons_ne_nil _ _, by decide, rfl, by decide⟩)

/-- An infix operator: a kind of token with binding powers. -/
structure InfixOperator where
  /-- The kind of its token. -/
  kind : TokenKind
  /-- Its binding powers. -/
  power : BindingPower
  /-- They are those of the kind. -/
  known : infixPower? kind = some power

namespace InfixOperator

variable (operator : InfixOperator)

theorem isMark : markChars operator.kind ≠ [] := (infixPower?_facts operator.known).1

theorem right_eq : operator.power.right = operator.power.left + 1 :=
  (infixPower?_facts operator.known).2.2.1

/-- The symbol of an operator. -/
def symbol : Symbol .pseudo := .mark operator.kind operator.isMark

end InfixOperator

/-! ## Trees -/

/-- The key of a property: a name or a string. -/
inductive PropertyKey where
  /-- A name. -/
  | name (word : Name)
  /-- A string. -/
  | string (content : String)

mutual

/-- An expression. -/
inductive ExpressionTree where
  /-- A number. -/
  | number (numeral : Numeral)
  /-- A string. -/
  | string (content : String)
  /-- A truth value. -/
  | boolean (value : Bool)
  /-- A name, with its scopes. -/
  | name (path : Path)
  /-- The call of a name. -/
  | call (callee : Path) (arguments : List ExpressionTree)
  /-- The call of a method. -/
  | method (receiver : ExpressionTree) (name : Name) (arguments : List ExpressionTree)
  /-- The access to a property. -/
  | member (receiver : ExpressionTree) (name : Name)
  /-- A unary operator and its operand. -/
  | unary (operator : UnaryOperator) (operand : ExpressionTree)
  /-- An infix operator and its operands. -/
  | binary (operator : InfixOperator) (left right : ExpressionTree)
  /-- An array literal. -/
  | array (elements : List ExpressionTree)
  /-- An object literal. -/
  | object (properties : List EntryTree)

/-- A property of an object literal. -/
inductive EntryTree where
  /-- A key and its value. -/
  | of (key : PropertyKey) (value : ExpressionTree)

end

/-! ## Writing -/

/-- The power of postfix forms and of everything that is not an operation. -/
def postfixPower : Nat := 17

/-- How tightly an expression holds together. -/
def ExpressionTree.power : ExpressionTree → Nat
  | .unary _ _ => unaryPower
  | .binary operator _ _ => operator.power.left
  | _ => postfixPower

/-- Symbols between parentheses. -/
def parenthesized {keywords : KeywordTable} (symbols : List (Symbol keywords)) :
    List (Symbol keywords) :=
  .leftParen :: (symbols ++ [.rightParen])

/-- An operand, between parentheses if it binds less tightly than is demanded. -/
def guarded {keywords : KeywordTable} (power least : Nat) (symbols : List (Symbol keywords)) :
    List (Symbol keywords) :=
  if power < least then parenthesized symbols else symbols

/-- The symbol of a truth value. -/
def booleanSymbol : Bool → Symbol .pseudo
  | true => .word .booleanLit "true" (isWord_truth true) (by decide +kernel)
  | false => .word .booleanLit "false" (isWord_truth false) (by decide +kernel)

/-- The symbols of a name with its scopes. -/
def Path.symbols (path : Path) : List (Symbol .pseudo) :=
  .name path.first :: path.others.flatMap fun name => [.mark .doubleColon, .name name]

/-- The symbol of a key. -/
def PropertyKey.symbol : PropertyKey → Symbol .pseudo
  | name word => .name word
  | string content => .string content

mutual

/-- The symbols of an expression. -/
def ExpressionTree.symbols : ExpressionTree → List (Symbol .pseudo)
  | .number numeral => [.number numeral]
  | .string content => [.string content]
  | .boolean value => [booleanSymbol value]
  | .name path => path.symbols
  | .call callee arguments =>
    callee.symbols ++ parenthesized (separated .comma (expressionSymbols arguments))
  | .method receiver name arguments =>
    guarded receiver.power postfixPower receiver.symbols ++ .dot :: .name name ::
      parenthesized (separated .comma (expressionSymbols arguments))
  | .member receiver name =>
    guarded receiver.power postfixPower receiver.symbols ++ [.dot, .name name]
  | .unary operator operand =>
    .mark operator.kind operator.isMark :: guarded operand.power unaryPower operand.symbols
  | .binary operator left right =>
    guarded left.power operator.power.left left.symbols ++
      operator.symbol :: guarded right.power operator.power.right right.symbols
  | .array elements =>
    .leftBracket :: (separated .comma (expressionSymbols elements) ++ [.rightBracket])
  | .object properties =>
    .leftBrace :: (separated .comma (entrySymbols properties) ++ [.rightBrace])

/-- The symbols of each of some expressions. -/
def expressionSymbols : List ExpressionTree → List (List (Symbol .pseudo))
  | [] => []
  | next :: others => next.symbols :: expressionSymbols others

/-- The symbols of a property. -/
def EntryTree.symbols : EntryTree → List (Symbol .pseudo)
  | .of key value => key.symbol :: .colon :: value.symbols

/-- The symbols of each of some properties. -/
def entrySymbols : List EntryTree → List (List (Symbol .pseudo))
  | [] => []
  | next :: others => next.symbols :: entrySymbols others

end

/-! ## Nodes -/

/-- A node without a span extended by a part: a node of kind `kind` grows, any other becomes its
first part. -/
def extendPlain (kind : NodeKind) (node part : Node) : Node :=
  .plain kind (if node.kind = kind then node.children ++ [part] else [node, part])

/-- The leaf of a name. -/
def nameNode (name : Name) : Node := .plainLeaf .identifier name.text

/-- The node of a name with its scopes. -/
def Path.node (path : Path) : Node :=
  path.others.foldl (fun outer name => extendPlain .scopedIdentifier outer (nameNode name))
    (nameNode path.first)

/-- The list of arguments of a call, if there are any. -/
def argumentNodes (values : List Node) : List Node :=
  if values.isEmpty then [] else [.plain .argumentList values]

/-- The kind of the call of a name. -/
def Path.callKind (path : Path) : NodeKind :=
  if Expression.isSystemVerb path.node then .systemFunctionCall else .functionCall

/-- The leaf of a key. -/
def PropertyKey.node : PropertyKey → Node
  | name word => nameNode word
  | string content => .plainLeaf .stringLiteral content

/-- The node of an operation. -/
def operationNode (kind : TokenKind) (left right : Node) : Node :=
  match kind with
  | .pipeArrow => .plain .pipeExpression [left, right]
  | .dotDot => .plain .rangeExpression [left, right]
  | _ => (Node.plain .binaryExpression [left, right]).withText (String.ofList (markChars kind))

mutual

/-- The node of an expression. -/
def ExpressionTree.node : ExpressionTree → Node
  | .number numeral => .plainLeaf .number (String.ofList numeral.chars)
  | .string content => .plainLeaf .stringLiteral content
  | .boolean value => .plainLeaf .boolean (booleanSymbol value).value
  | .name path => path.node
  | .call callee arguments =>
    .plain callee.callKind (callee.node :: argumentNodes (expressionNodes arguments))
  | .method receiver name arguments =>
    .plain .methodCall (receiver.node :: nameNode name :: argumentNodes (expressionNodes arguments))
  | .member receiver name => extendPlain .propertyAccess receiver.node (nameNode name)
  | .unary operator operand =>
    (Node.plain .unaryExpression [operand.node]).withText (String.ofList (markChars operator.kind))
  | .binary operator left right => operationNode operator.kind left.node right.node
  | .array elements => .plain .arrayLiteral (expressionNodes elements)
  | .object properties => .plain .objectLiteral (entryNodes properties)

/-- The nodes of some expressions. -/
def expressionNodes : List ExpressionTree → List Node
  | [] => []
  | next :: others => next.node :: expressionNodes others

/-- The node of a property. -/
def EntryTree.node : EntryTree → Node
  | .of key value => .plain .objectProperty [key.node, value.node]

/-- The nodes of some properties. -/
def entryNodes : List EntryTree → List Node
  | [] => []
  | next :: others => next.node :: entryNodes others

end

/-! ## Nesting -/

/-- The nesting of an operand, which is deeper by one between parentheses. -/
def guardedInside (power least inside : Nat) : Nat :=
  if power < least then inside + 1 else inside

mutual

/-- The nesting inside an expression: that of the deepest operand, argument or part between
parentheses, each of which is one level deeper. -/
def ExpressionTree.inside : ExpressionTree → Nat
  | .number _ | .string _ | .boolean _ | .name _ => 0
  | .call _ arguments => expressionsNest arguments
  | .method receiver _ arguments =>
    max (guardedInside receiver.power postfixPower receiver.inside) (expressionsNest arguments)
  | .member receiver _ => guardedInside receiver.power postfixPower receiver.inside
  | .unary _ operand => guardedInside operand.power unaryPower operand.inside + 1
  | .binary operator left right =>
    max (guardedInside left.power operator.power.left left.inside)
      (guardedInside right.power operator.power.right right.inside + 1)
  | .array elements => expressionsNest elements
  | .object properties => entriesNest properties

/-- The nesting of the deepest of some expressions. -/
def expressionsNest : List ExpressionTree → Nat
  | [] => 0
  | next :: others => max (next.inside + 1) (expressionsNest others)

/-- The nesting of the value of a property. -/
def EntryTree.nest : EntryTree → Nat
  | .of _ value => value.inside + 1

/-- The nesting of the deepest of some properties. -/
def entriesNest : List EntryTree → Nat
  | [] => 0
  | next :: others => max next.nest (entriesNest others)

end

/-- The nesting of an expression. -/
def ExpressionTree.nest (tree : ExpressionTree) : Nat := tree.inside + 1

@[simp] theorem expressionSymbols_eq : ∀ trees : List ExpressionTree,
    expressionSymbols trees = trees.map ExpressionTree.symbols
  | [] => rfl
  | next :: others => by rw [expressionSymbols, expressionSymbols_eq others, List.map_cons]

@[simp] theorem expressionNodes_eq : ∀ trees : List ExpressionTree,
    expressionNodes trees = trees.map ExpressionTree.node
  | [] => rfl
  | next :: others => by rw [expressionNodes, expressionNodes_eq others, List.map_cons]

@[simp] theorem entrySymbols_eq : ∀ trees : List EntryTree,
    entrySymbols trees = trees.map EntryTree.symbols
  | [] => rfl
  | next :: others => by rw [entrySymbols, entrySymbols_eq others, List.map_cons]

@[simp] theorem entryNodes_eq : ∀ trees : List EntryTree,
    entryNodes trees = trees.map EntryTree.node
  | [] => rfl
  | next :: others => by rw [entryNodes, entryNodes_eq others, List.map_cons]

/-! ## Expressions are values -/

theorem IsValue.guarded {symbols : List (Symbol .pseudo)} (value : IsValue symbols)
    (power least : Nat) : IsValue (guarded power least symbols) := by
  unfold DocGrammar.guarded
  split
  · exact value.toIsPhrase.enclosed_value (.inl rfl) (.inl rfl)
  · exact value

/-- A row of phrases between parentheses is a value. -/
theorem isValue_parenthesized {items : List (List (Symbol .pseudo))}
    (phrases : ∀ item ∈ items, IsPhrase item) :
    IsValue (parenthesized (separated .comma items)) :=
  (isPhrase_separated phrases).enclosed_value (.inl rfl) (.inl rfl)

theorem isValue_booleanSymbol (value : Bool) : IsValue [booleanSymbol value] := by
  cases value <;> exact isValue_singleton rfl rfl

theorem Path.isValue (path : Path) : IsValue path.symbols := by
  obtain ⟨first, others⟩ := path
  have further : ∀ outer : List (Symbol .pseudo), IsValue outer →
      IsValue (outer ++ others.flatMap fun name => [.mark .doubleColon, .name name]) := by
    induction others with
    | nil =>
      intro outer value
      rw [List.flatMap_nil, List.append_nil]
      exact value
    | cons name others ih =>
      intro outer value
      rw [List.flatMap_cons, ← List.append_assoc]
      have scope : IsValue [.mark .doubleColon, Symbol.name name] :=
        (isPhrase_singleton rfl).append_value (isValue_singleton rfl rfl)
      exact ih _ (value.toIsPhrase.append_value scope)
  exact further [.name first] (isValue_singleton rfl rfl)

theorem PropertyKey.isPlain (key : PropertyKey) : key.symbol.isPlain = true := by
  cases key <;> rfl

mutual

/-- An expression is written on one line and ends with a value. -/
theorem ExpressionTree.isValue : ∀ tree : ExpressionTree, IsValue tree.symbols
  | .number _ => isValue_singleton rfl rfl
  | .string _ => isValue_singleton rfl rfl
  | .boolean value => isValue_booleanSymbol value
  | .name path => path.isValue
  | .call callee arguments =>
    callee.isValue.toIsPhrase.append_value
      (isValue_parenthesized (isPhrase_expressionSymbols arguments))
  | .method receiver name arguments => by
    have given := isValue_parenthesized (isPhrase_expressionSymbols arguments)
    -- an operand in front is a phrase, and what stands last makes the value
    have behind : IsValue (.dot :: Symbol.name name ::
        parenthesized (separated .comma (expressionSymbols arguments))) :=
      (isPhrase_singleton rfl).append_value ((isPhrase_singleton rfl).append_value given)
    exact (receiver.isValue.guarded _ _).toIsPhrase.append_value behind
  | .member receiver name => by
    have behind : IsValue [.dot, Symbol.name name] :=
      (isPhrase_singleton rfl).append_value (isValue_singleton rfl rfl)
    exact (receiver.isValue.guarded _ _).toIsPhrase.append_value behind
  | .unary operator operand => by
    have plain : (Symbol.mark operator.kind operator.isMark : Symbol .pseudo).isPlain = true := by
      cases operator <;> rfl
    exact (isPhrase_singleton plain).append_value (operand.isValue.guarded _ _)
  | .binary operator left right =>
    (left.isValue.guarded _ _).operator (infixPower?_facts operator.known).2.1
      (right.isValue.guarded _ _)
  | .array elements =>
    (isPhrase_separated (isPhrase_expressionSymbols elements)).enclosed_value (.inr rfl) (.inr rfl)
  | .object properties => by
    have inner := isPhrase_separated (isPhrase_entrySymbols properties)
    have closed : IsValue (separated .comma (entrySymbols properties) ++ [.rightBrace]) :=
      inner.append_value (isValue_singleton rfl rfl)
    exact (isPhrase_singleton rfl).append_value closed

theorem isPhrase_expressionSymbols : ∀ trees : List ExpressionTree,
    ∀ item ∈ expressionSymbols trees, IsPhrase item
  | [], _, member => absurd member List.not_mem_nil
  | next :: others, item, member => by
    rcases List.mem_cons.mp member with rfl | further
    · exact next.isValue.toIsPhrase
    · exact isPhrase_expressionSymbols others item further

theorem EntryTree.isPhrase : ∀ tree : EntryTree, IsPhrase tree.symbols
  | .of key value => (value.isValue.toIsPhrase.cons rfl).cons key.isPlain

theorem isPhrase_entrySymbols : ∀ trees : List EntryTree,
    ∀ item ∈ entrySymbols trees, IsPhrase item
  | [], _, member => absurd member List.not_mem_nil
  | next :: others, item, member => by
    rcases List.mem_cons.mp member with rfl | further
    · exact next.isPhrase
    · exact isPhrase_entrySymbols others item further

end

end DocGrammar
