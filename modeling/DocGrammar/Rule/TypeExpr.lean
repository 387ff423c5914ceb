import DocGrammar.Rule.Basic

/-! # Type expressions

Every grammar shares the type expressions. From the loosest to the tightest construct:

* a union of array types, separated by bars and grouped to the left;
* an array type, an atom with any number of bracket pairs behind it;
* an atom: a primitive type, a name, a name with type arguments, or an object type.

Every type is wrapped in a node that holds exactly one alternative. Type arguments and property
types are nested one level deeper. -/

namespace DocGrammar

namespace TypeExpr

/-- The names of the primitive types. -/
def primitives : List String := ["string", "number", "boolean", "any"]

/-- The node of a type around one of its alternatives. -/
def wrap (inner : Node) : Node := .spanning .typeSpecification [inner] inner.span

/-- Fails because `token` cannot continue a type expression. -/
def malformed {α : Type} (token : Token) (wanted : List String) : Rule α :=
  Rule.refuse (.malformedType token.kind token.value wanted) token.span

/-! ## Atoms -/

/-- A property of an object type, given the rule of nested types. -/
def property (inner : Rule Node) : Rule Node := do
  let name ← Rule.current
  if name.kind ≠ .identifier then malformed name ["property name", "'\x7d'"]
  let _ ← Rule.advance
  let mark ← Rule.current
  if mark.kind ≠ .colon then malformed mark ["':'"]
  let _ ← Rule.advance
  return .branch .propertyType [.leaf .identifier name, ← inner]

/-- A round of the properties of an object type. All but the first one start with a comma, and a
comma may stand behind the last property. -/
def propertyRound (inner : Rule Node) (found : List Node) :
    Rule (Rule.Round (List Node) (List Node)) := do
  if ← Rule.isAt .rightBrace then return .done found
  unless found.isEmpty do
    let mark ← Rule.current
    if mark.kind ≠ .comma then malformed mark ["','", "'\x7d'"]
    let _ ← Rule.advance
    Rule.skipNewlines
    if ← Rule.isAt .rightBrace then return .done found
  let next ← property inner
  Rule.skipNewlines
  return .again (found ++ [next])

/-- The properties of an object type up to its closing brace. -/
def properties (inner : Rule Node) : Rule (List Node) :=
  Rule.loop (propertyRound inner) []

/-- An object type. -/
def object (inner : Rule Node) : Rule Node := do
  let start ← Rule.advance
  Rule.skipNewlines
  let found ← properties inner
  let stop ← Rule.advance
  return .spanning .objectType found (some (start.span.through stop.span))

/-- A name with type arguments. -/
def generic (inner : Rule Node) : Rule Node := do
  let name ← Rule.advance
  let _ ← Rule.advance
  let arguments ← Rule.chain .comma inner
  let mark ← Rule.current
  if mark.kind ≠ .greater then malformed mark ["'>'", "','"]
  let stop ← Rule.advance
  return .spanning .genericType (.leaf .identifier name :: arguments)
    (some (name.span.through stop.span))

/-- A type without brackets behind it, given the rule of nested types. -/
def atom (inner : Rule Node) : Rule Node := do
  let token ← Rule.current
  if token.kind = .leftBrace then return wrap (← object inner)
  if token.kind ≠ .identifier then malformed token ["primitive type", "identifier", "'\x7b'"]
  if (← Rule.peek 1).kind = .less then return wrap (← generic inner)
  let _ ← Rule.advance
  return wrap (.leaf (if token.value ∈ primitives then .primitiveType else .identifier) token)

/-! ## Arrays and unions -/

/-- A round of the bracket pairs behind an element type. -/
def bracketRound (element : Node) : Rule (Rule.Round Node Node) := do
  if ← Rule.isAt .leftBracket then
    if (← Rule.peek 1).kind = .rightBracket then
      let _ ← Rule.advance
      let close ← Rule.advance
      return .again (wrap (.spanning .arrayType [element] (element.spanTo close.span)))
  return .done element

/-- An atom with any number of bracket pairs behind it. -/
def array (inner : Rule Node) : Rule Node := do
  Rule.loop bracketRound (← atom inner)

/-- A round of the array types behind the bars of a union. -/
def unionRound (inner : Rule Node) (left : Node) : Rule (Rule.Round Node Node) := do
  if ← Rule.isAt .pipe then
    let _ ← Rule.advance
    let right ← array inner
    return .again (wrap (.branch .unionType [left, right]))
  return .done left

/-- Array types with bars between them. -/
def union (inner : Rule Node) : Rule Node := do
  Rule.loop (unionRound inner) (← array inner)

/-! ## Types -/

/-- A type expression with at most `levels` levels of nesting, itself included. -/
def upTo : Nat → Rule Node
  | 0 => Rule.tooDeep
  | levels + 1 => Rule.nested (union fun state => upTo levels state)

/-- A type expression. -/
def rule : Rule Node := do
  upTo (← Rule.room)

/-- A type expression that is all there is, up to line ends around it. -/
def complete : Rule Node := do
  Rule.skipNewlines
  let result ← rule
  Rule.skipNewlines
  let rest ← Rule.current
  if rest.kind ≠ .endOfInput then malformed rest ["'|'", "'[]'", "end of input"]
  return result

end TypeExpr

end DocGrammar
