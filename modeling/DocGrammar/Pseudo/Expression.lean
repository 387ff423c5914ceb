import DocGrammar.Rule.TypeExpr

/-! # Expressions of pseudo code

Expressions are read by binding powers. An infix operator has a power toward its left operand and
a greater one toward its right operand, so operators of one row group to the left. Postfix forms
bind tighter than any operator: property access and method call behind anything, scope and call
behind names.

* **`infixPower?`** — the binding powers of an infix operator.
* **`Expression.rule`** — the rule of an expression whose operators all bind at least as tightly
  as a given power.

Every operand that is itself an expression is nested one level deeper. -/

namespace DocGrammar

/-! ## Binding powers -/

/-- The binding powers of an operator toward its left and its right operand. -/
structure BindingPower where
  /-- The power toward the left operand. -/
  left : Nat
  /-- The power toward the right operand. -/
  right : Nat
  deriving DecidableEq, Repr

/-- The binding powers of a token that is an infix operator. -/
def infixPower? : TokenKind → Option BindingPower
  | .pipeArrow => some ⟨1, 2⟩
  | .or => some ⟨3, 4⟩
  | .and => some ⟨5, 6⟩
  | .equal | .notEqual | .less | .greater | .lessEqual | .greaterEqual => some ⟨7, 8⟩
  | .dotDot => some ⟨9, 10⟩
  | .plus | .minus => some ⟨11, 12⟩
  | .star | .slash | .percent => some ⟨13, 14⟩
  | _ => none

/-- The binding power of a unary operator toward its operand. -/
def unaryPower : Nat := 15

/-- The names whose calls are calls of the system. -/
def systemVerbs : List String := ["spawn_subagent", "load_specs", "load_algorithm", "execute"]

namespace Expression

/-! ## Arguments and literals -/

/-- The argument list between parentheses, or nothing if they are empty. The rule `inner` reads
the nested expressions from a power on. -/
def arguments (inner : Nat → Rule Node) : Rule (List Node) := do
  let _ ← Rule.advance
  let values ← Rule.delimited .rightParen Rule.comma (inner 0)
  let _ ← Rule.advance
  return if values.isEmpty then [] else [.branch .argumentList values]

/-- An array literal. -/
def array (inner : Nat → Rule Node) : Rule Node := do
  let start ← Rule.advance
  let elements ← Rule.delimited .rightBracket Rule.comma (inner 0)
  let stop ← Rule.advance
  return .spanning .arrayLiteral elements (some (start.span.through stop.span))

/-- The key of a property: a name or a string. -/
def propertyKey : Rule Node := do
  let key ← Rule.current
  match key.kind with
  | .identifier => Rule.leaf .identifier
  | .stringLit => Rule.leaf .stringLiteral
  | _ => Rule.unexpected key ["property name", "'\x7d'"]

/-- A property of an object literal. -/
def property (inner : Nat → Rule Node) : Rule Node := do
  let key ← propertyKey
  let _ ← Rule.expect .colon "':'"
  return .branch .objectProperty [key, ← inner 0]

/-- An object literal. -/
def object (inner : Nat → Rule Node) : Rule Node := do
  let start ← Rule.advance
  Rule.skipNewlines
  let properties ← Rule.delimited .rightBrace
    (do Rule.comma; Rule.skipNewlines)
    (do let found ← property inner; Rule.skipNewlines; return found)
  let stop ← Rule.advance
  return .spanning .objectLiteral properties (some (start.span.through stop.span))

/-! ## Operands -/

/-- The start of an expression: a literal, a name, a unary operator with its operand, or an
expression between parentheses. -/
def operand (inner : Nat → Rule Node) : Rule Node := do
  let token ← Rule.current
  match token.kind with
  | .bang | .minus =>
    let _ ← Rule.advance
    let value ← inner unaryPower
    return (Node.spanning .unaryExpression [value] (value.spanFrom token.span)).withText token.value
  | .numberLit => Rule.leaf .number
  | .stringLit => Rule.leaf .stringLiteral
  | .booleanLit => Rule.leaf .boolean
  | .identifier => Rule.leaf .identifier
  | .leftParen =>
    let _ ← Rule.advance
    let value ← inner 0
    let _ ← Rule.expect .rightParen "')'"
    return value
  | .leftBracket => array inner
  | .leftBrace => object inner
  | _ => Rule.unexpected token ["expression"]

/-! ## Postfix forms -/

/-- Whether a node can be called or open a scope. -/
def isName (node : Node) : Bool :=
  node.kind = .identifier || node.kind = .scopedIdentifier

/-- A node extended by a part: a node of kind `kind` grows, any other becomes its first part. -/
def extend (kind : NodeKind) (node part : Node) : Node :=
  if node.kind = kind then .branch kind (node.children ++ [part]) else .branch kind [node, part]

/-- The property access or method call behind a receiver. -/
def member (inner : Nat → Rule Node) (receiver : Node) : Rule Node := do
  let _ ← Rule.advance
  let name ← Rule.identifier
  if ← Rule.isAt .leftParen then
    let values ← arguments inner
    let close ← Rule.previous
    return .spanning .methodCall (receiver :: name :: values) (receiver.spanTo close.span)
  return extend .propertyAccess receiver name

/-- The name behind a scope. -/
def scope (outer : Node) : Rule Node := do
  let _ ← Rule.advance
  return extend .scopedIdentifier outer (← Rule.identifier)

/-- Whether a callee is a system verb. -/
def isSystemVerb (callee : Node) : Bool :=
  callee.kind = .identifier && (callee.text.map systemVerbs.contains).getD false

/-- The call of a name. -/
def call (inner : Nat → Rule Node) (callee : Node) : Rule Node := do
  let values ← arguments inner
  let close ← Rule.previous
  let kind := if isSystemVerb callee then .systemFunctionCall else .functionCall
  return .spanning kind (callee :: values) (callee.spanTo close.span)

/-! ## Infix operators -/

/-- The node of an infix operator between its operands. -/
def infixNode (operator : Token) (left right : Node) : Node :=
  match operator.kind with
  | .pipeArrow => .branch .pipeExpression [left, right]
  | .dotDot => .branch .rangeExpression [left, right]
  | _ => (Node.branch .binaryExpression [left, right]).withText operator.value

/-- The operation of an infix operator on the operand before it. Line ends may stand behind the
operator. -/
def operation (inner : Nat → Rule Node) (power : BindingPower) (left : Node) : Rule Node := do
  let operator ← Rule.advance
  Rule.skipNewlines
  return infixNode operator left (← inner power.right)

/-- What may follow an operand: a postfix form, or an operator of at least the power `least`. -/
def tail (inner : Nat → Rule Node) (least : Nat) (left : Node) : Rule (Rule.Round Node Node) := do
  let token ← Rule.current
  if token.kind = .dot then return .again (← member inner left)
  if token.kind = .doubleColon && isName left then return .again (← scope left)
  if token.kind = .leftParen && isName left then return .again (← call inner left)
  match infixPower? token.kind with
  | none => return .done left
  | some power =>
    if power.left < least then return .done left else return .again (← operation inner power left)

/-! ## Expressions -/

/-- An expression with at most `levels` levels of nesting, itself included, whose operators have
at least the power `least`. -/
def upTo : Nat → Nat → Rule Node
  | 0, _ => Rule.tooDeep
  | levels + 1, least => Rule.nested do
    let inner : Nat → Rule Node := fun power state => upTo levels power state
    Rule.loop (tail inner least) (← operand inner)

/-- An expression. -/
def rule : Rule Node := do
  upTo (← Rule.room) 0

end Expression

end DocGrammar
