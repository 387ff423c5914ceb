import DocGrammar.Rule.TypeExpr

/-! # Lines of specs sections

The body of a specs section holds one spec per line. Each kind of section has its own rule for a
line: intents, inputs, outputs, examples, constraints and invariants. -/

namespace DocGrammar

namespace SpecLine

/-! ## Shared parts -/

/-- A number with an optional minus sign. -/
def number : Rule Node := do
  if ← Rule.isAt .minus then
    let sign ← Rule.advance
    let digits ← Rule.expect .numberLit "number"
    return .leafOf .number ("-" ++ digits.value) (sign.span.through digits.span)
  return .leaf .number (← Rule.expect .numberLit "number")

/-- A value: a name, a string, a number or a truth value. -/
def value : Rule Node := do
  let token ← Rule.current
  let inner ← match token.kind with
    | .identifier => Rule.leaf .identifier
    | .stringLit => Rule.leaf .stringLiteral
    | .numberLit | .minus => number
    | .booleanLit => Rule.leaf .booleanLiteral
    | _ => Rule.unexpected token ["identifier", "string", "number", "boolean"]
  return .branch .value [inner]

/-- A name followed by property names. -/
def propertyAccess : Rule Node := do
  return .branch .propertyAccess (← Rule.chain .dot Rule.identifier)

/-! ## Calls -/

/-- A property of an object in an example. -/
def property : Rule Node := do
  let name ← Rule.identifier
  let _ ← Rule.expect .colon "':'"
  return .branch .propertyAssignment [name, ← value]

/-- An object in an example. -/
def object : Rule Node := do
  let start ← Rule.advance
  let properties ← Rule.delimited .rightBrace Rule.comma property
  let stop ← Rule.advance
  return .spanning .objectLiteral properties (some (start.span.through stop.span))

/-- An argument of a call. -/
def argument : Rule Node := do
  let token ← Rule.current
  let inner ← match token.kind with
    | .identifier => Rule.leaf .identifier
    | .stringLit => Rule.leaf .stringLiteral
    | .numberLit | .minus => number
    | .leftBrace => object
    | _ => Rule.unexpected token ["identifier", "string", "number", "'\x7b'", "')'"]
  return .branch .argument [inner]

/-- A call of a function. -/
def call : Rule Node := do
  let name ← Rule.identifier
  let _ ← Rule.expect .leftParen "'('"
  let arguments ← Rule.delimited .rightParen Rule.comma argument
  let close ← Rule.advance
  return .spanning .functionCall (name :: arguments) (name.spanTo close.span)

/-! ## Intents -/

/-- Whether a word can be the verb of an intent: a capital letter followed by capital letters and
underscores. -/
def isVerb (word : String) : Bool :=
  match word.toList with
  | [] => false
  | first :: others =>
    ('A' ≤ first && first ≤ 'Z') &&
      others.all fun char => ('A' ≤ char && char ≤ 'Z') || char = '_'

/-- The declaration of an intent. -/
def intent : Rule Node := do
  let verb ← Rule.current
  if verb.kind ≠ .identifier || !isVerb verb.value then Rule.unexpected verb ["ACTION_VERB"]
  let _ ← Rule.advance
  let subject := Node.branch .subject [← Rule.identifier]
  let _ ← Rule.expect .withWord "'WITH'"
  let parameters := Node.branch .parameters [← Rule.identifier]
  let _ ← Rule.expect .returningWord "'RETURNING'"
  let result := Node.branch .returnType [← Rule.identifier]
  return .branch .intentDeclaration [.leaf .actionVerb verb, subject, parameters, result]

/-! ## Inputs and outputs -/

/-- A named input and its type. -/
def input : Rule Node := do
  let name ← Rule.identifier
  let _ ← Rule.expect .colon "':'"
  return .branch .inputSpec [name, ← TypeExpr.rule]

/-- The word that marks a successful output. -/
def successWord : String := "SUCCESS"

/-- The word that marks a failure output. -/
def failureWord : String := "FAILURE"

/-- A named output: a type behind the success mark, error names behind the failure mark. -/
def output : Rule Node := do
  let mark ← Rule.current
  let behind ← Rule.peek 1
  if mark.kind ≠ .identifier || (mark.value ≠ successWord && mark.value ≠ failureWord) ||
      behind.kind ≠ .colon then
    Rule.unexpected mark ["'SUCCESS:'", "'FAILURE:'"]
  let _ ← Rule.advance
  let _ ← Rule.advance
  let name := (← Rule.identifier).withField "name"
  let detail ←
    if mark.value = successWord then do
      let _ ← Rule.expect .colon "':'"
      pure ((← TypeExpr.rule).withField "type")
    else do
      let _ ← Rule.expect .assign "'='"
      pure ((Node.branch .errorTypes (← Rule.chain .pipe Rule.identifier)).withField "errors")
  return .spanning .outputSpec [name, detail] (detail.spanFrom mark.span)

/-! ## Examples -/

/-- The word that announces an error as a result. -/
def errorWord : String := "Error"

/-- The result of an example call. -/
def result : Rule Node := do
  let token ← Rule.current
  let behind ← Rule.peek 1
  if token.kind = .identifier && token.value = errorWord && behind.kind = .colon then
    let _ ← Rule.advance
    let _ ← Rule.advance
    let name ← Rule.identifier
    return .branch .expectedResult [.spanning .errorResult [name] (name.spanFrom token.span)]
  let inner ← match token.kind with
    | .stringLit => Rule.leaf .stringLiteral
    | .numberLit | .minus => number
    | .booleanLit => Rule.leaf .booleanLiteral
    | .identifier => Rule.leaf .identifier
    | _ => Rule.unexpected token ["string", "number", "boolean", "identifier", "'Error:'"]
  return .branch .expectedResult [inner]

/-- A call and its expected result. -/
def exampleCall : Rule Node := do
  let made ← call
  let _ ← Rule.expect .resultArrow "'→'"
  return .branch .exampleSpec [made, ← result]

/-! ## Constraints -/

/-- Whether a token compares two values. -/
def isComparison : TokenKind → Bool
  | .greaterEqual | .lessEqual | .greater | .less | .equal | .notEqual => true
  | _ => false

/-- A range: two values between brackets, or two numbers with dots between them. -/
def range : Rule Node := do
  let token ← Rule.current
  if token.kind = .leftBracket then
    let _ ← Rule.advance
    let low ← value
    let _ ← Rule.expect .comma "','"
    let high ← value
    let close ← Rule.expect .rightBracket "']'"
    return .spanning .range [low, high] (some (token.span.through close.span))
  if token.kind ≠ .numberLit && token.kind ≠ .minus then
    Rule.unexpected token ["number", "'['"]
  let low ← number
  let _ ← Rule.expect .dotDot "'..'"
  return .branch .range [low, ← number]

/-- A constraint on a property. -/
def constraint : Rule Node := do
  let target ← propertyAccess
  let token ← Rule.current
  let inner ←
    if isComparison token.kind then do
      let operator ← Rule.leaf .comparisonOperator
      pure (Node.branch .comparison [target, operator, ← value])
    else if token.kind = .inWord then do
      let _ ← Rule.advance
      pure (Node.branch .rangeConstraint [target, ← range])
    else if token.kind = .matchesWord then do
      let _ ← Rule.advance
      let pattern ← Rule.expect .patternLit "/pattern/"
      pure (Node.branch .formatConstraint [target, .leaf .pattern pattern])
    else Rule.unexpected token ["comparison operator", "'IN'", "'MATCHES'"]
  return .branch .constraintSpec [inner]

/-! ## Invariants -/

/-- A side of an invariant: a truth value, a call or a property access. -/
def side : Rule Node := do
  let token ← Rule.current
  match token.kind with
  | .booleanLit => Rule.leaf .booleanLiteral
  | .identifier => if (← Rule.peek 1).kind = .leftParen then call else propertyAccess
  | _ => Rule.unexpected token ["function call", "property access", "boolean"]

/-- Two equivalent statements. -/
def invariant : Rule Node := do
  let left ← side
  let _ ← Rule.expect .iff "'⟺'"
  return .branch .invariantSpec [left, ← side]

end SpecLine

end DocGrammar
