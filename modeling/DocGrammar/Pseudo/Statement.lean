import DocGrammar.Pseudo.Expression

/-! # Statements of pseudo code

Statements stand on lines of their own or are separated by semicolons. A conditional and a
function definition hold blocks, and a block holds statements, one level deeper; so does each
conditional behind an `else`.

* **`Statement.compound`** — blocks and conditionals up to a number of levels.
* **`Statement.all`** — the statements of a whole fenced block. -/

namespace DocGrammar

namespace Statement

/-! ## Lists of statements -/

/-- The kinds of tokens that separate statements. -/
def separators : List TokenKind := [.newline, .semicolon]

/-- A round of the statements up to a closing token. A statement ends at a separator, at the
closing token or at the end of the input. -/
def listRound (close : TokenKind) (statement : Rule Node) (found : List Node) :
    Rule (Rule.Round (List Node) (List Node)) := do
  let token ← Rule.current
  if token.kind = close then return .done found
  if token.kind = .endOfInput then Rule.unexpected token ["'\x7d'"]
  let next ← statement
  let behind ← Rule.current
  if behind.kind ∈ separators then Rule.skip separators
  else if behind.kind ≠ close && behind.kind ≠ .endOfInput then
    Rule.unexpected behind ["end of statement"]
  return .again (found ++ [next])

/-- The statements up to a closing token, which is not consumed. -/
def list (close : TokenKind) (statement : Rule Node) : Rule (List Node) := do
  Rule.skip separators
  Rule.loop (listRound close statement) []

/-! ## Simple statements -/

/-- A binding of a new name. -/
def binding : Rule Node := do
  let start ← Rule.advance
  let name ← Rule.identifier
  let _ ← Rule.expect .assign "'='"
  let value ← Expression.rule
  return .spanning .letBinding [name, value] (value.spanFrom start.span)

/-- A new value for a name. -/
def assignment : Rule Node := do
  let name ← Rule.leaf .identifier
  let _ ← Rule.advance
  return .branch .assignment [name, ← Expression.rule]

/-- A return, with or without a value. -/
def returning : Rule Node := do
  let start ← Rule.advance
  if ← Rule.isAtAny (separators ++ [.rightBrace, .endOfInput]) then
    return .spanning .returnStatement [] (some start.span)
  let value ← Expression.rule
  return .spanning .returnStatement [value] (value.spanFrom start.span)

/-- An expression as a statement. A call of the system is a statement by itself. -/
def expression : Rule Node := do
  let value ← Expression.rule
  return if value.kind = .systemFunctionCall then value else .branch .expressionStatement [value]

/-! ## Function definitions -/

/-- A parameter and its type. -/
def parameter : Rule Node := do
  let name ← Rule.identifier
  let _ ← Rule.expect .colon "':'"
  return .branch .parameter [name, ← TypeExpr.rule]

/-- The parameters of a function up to the closing parenthesis, as one node if there are any. -/
def parameters : Rule (List Node) := do
  let found ← Rule.delimited .rightParen Rule.comma parameter
  let _ ← Rule.advance
  return if found.isEmpty then [] else [(Node.branch .parameterList found).withField "parameters"]

/-- The return type of a function, if an arrow announces it. -/
def returnType : Rule (List Node) := do
  if ← Rule.isAt .arrow then
    let _ ← Rule.advance
    return [(← TypeExpr.rule).withField "return_type"]
  return []

/-- A function definition, given the rule of its block. -/
def function (block : Rule Node) : Rule Node := do
  let start ← Rule.advance
  let name ← Rule.identifier
  let _ ← Rule.expect .leftParen "'('"
  let given ← parameters
  let result ← returnType
  let body := (← block).withField "body"
  return .spanning .functionDefinition (name.withField "name" :: (given ++ result ++ [body]))
    (body.spanFrom start.span)

/-! ## Blocks and conditionals -/

/-- Statements between braces, given the rule of the statements up to the closing brace. -/
def braced (body : Rule (List Node)) : Rule Node := do
  let start ← Rule.current
  if start.kind ≠ .leftBrace then Rule.unexpected start ["'\x7b'"]
  let (statements, stop) ← Rule.nested do
    let _ ← Rule.advance
    let statements ← body
    return (statements, ← Rule.advance)
  return .spanning .block statements (some (start.span.through stop.span))

/-- The other branch of a conditional: a block or a conditional behind an `else`, which may stand
on a later line. Without an `else` nothing is read. -/
def alternative (block conditional : Rule Node) : Rule (List Node) := do
  let start ← get
  Rule.skipNewlines
  if ← Rule.isAt .elseWord then
    let _ ← Rule.advance
    let branch ← if ← Rule.isAt .ifWord then conditional else block
    return [branch.withField "alternative"]
  set start
  return []

/-- A conditional, given the rules of its blocks and of the conditional behind its `else`. -/
def conditional (block otherwise : Rule Node) : Rule Node := do
  let start ← Rule.advance
  let condition := (← Expression.rule).withField "condition"
  let consequence := (← block).withField "consequence"
  let others ← alternative block otherwise
  return .spanning .ifStatement (condition :: consequence :: others)
    ((others.getLast?.getD consequence).spanFrom start.span)

/-- A statement, given the rules of blocks and of conditionals. -/
def single (block conditional : Rule Node) : Rule Node := do
  let token ← Rule.current
  match token.kind with
  | .fnWord => function block
  | .letWord => binding
  | .ifWord => conditional
  | .returnWord => returning
  | .identifier =>
    if (← Rule.peek 1).kind = .assign then assignment else expression
  | _ => expression

/-- The constructs that hold blocks of statements. -/
inductive Form where
  /-- A block between braces. -/
  | block
  /-- A conditional. -/
  | conditional
  deriving DecidableEq, Repr

/-- The rule of a form, given the rule of the statements between its braces and the rule of the
conditional behind its `else`. -/
def Form.rule (form : Form) (body : Rule (List Node)) (otherwise : Rule Node) : Rule Node :=
  match form with
  | block => braced body
  | conditional => Statement.conditional (braced body) (Rule.nested otherwise)

/-- A form with at most `levels` levels of nesting inside it. -/
def compound : Nat → Form → Rule Node
  | 0, form => form.rule Rule.tooDeep Rule.tooDeep
  | levels + 1, form =>
    let block : Rule Node := fun state => compound levels .block state
    let conditional : Rule Node := fun state => compound levels .conditional state
    form.rule (list .rightBrace (single block conditional)) conditional

/-- A form. -/
def compoundRule (form : Form) : Rule Node := do
  compound (← Rule.room) form

/-- The statements of a whole text. -/
def all : Rule (List Node) :=
  list .endOfInput (single (compoundRule .block) (compoundRule .conditional))

end Statement

end DocGrammar
