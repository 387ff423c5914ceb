import DocGrammar.Rule.Cursor
import DocGrammar.Rule.Session
import DocGrammar.Tree.Node

/-! # Rules

A rule reads some tokens and builds a value, or fails. Its state is a cursor and the nesting
depth; both survive a failure. Rules never recurse on their own: a construct that can hold itself
is entered through `Rule.nested`, which counts the level, and a repetition is a `Rule.loop`, which
ends because every round consumes a token.

* **`Rule`** — the monad of rules.
* **`Rule.nested`** — one level of nesting around a rule.
* **`Rule.loop`**, **`Rule.delimited`**, **`Rule.chain`** — repetitions. -/

namespace DocGrammar

/-- The state of a rule. -/
structure RuleState where
  /-- The place in the tokens. -/
  cursor : Cursor
  /-- The nesting depth. -/
  nesting : Nesting
  deriving DecidableEq, Repr

/-- A rule that reads tokens and yields a value. -/
abbrev Rule : Type → Type := EStateM Failure RuleState

namespace Rule

variable {α β : Type}

/-! ## Looking at tokens -/

/-- The current token. -/
def current : Rule Token := do
  return (← get).cursor.current

/-- The token some places ahead. -/
def peek (distance : Nat) : Rule Token := do
  return (← get).cursor.peek distance

/-- The token before the current one. -/
def previous : Rule Token := do
  return (← get).cursor.previous

/-- Whether the current token is of a kind. -/
def isAt (kind : TokenKind) : Rule Bool := do
  return (← current).kind = kind

/-- Whether the current token is of one of some kinds. -/
def isAtAny (kinds : List TokenKind) : Rule Bool := do
  return (← current).kind ∈ kinds

/-! ## Moving -/

/-- The current token; the cursor moves behind it. -/
def advance : Rule Token := do
  let token ← current
  modify fun state => { state with cursor := state.cursor.advance }
  return token

/-- Moves the cursor behind a run of tokens of some kinds. -/
def skip (kinds : List TokenKind) : Rule Unit :=
  modify fun state => { state with cursor := state.cursor.skip kinds }

/-- Moves the cursor behind line ends. -/
def skipNewlines : Rule Unit := skip [.newline]

/-! ## Failing -/

/-- Fails with a cause at a span. -/
def refuse (cause : Cause) (span : Span) : Rule α :=
  throw (.refused ⟨cause, span⟩)

/-- Fails because `token` stands where something else is wanted. -/
def unexpected (token : Token) (wanted : List String) : Rule α :=
  refuse (.unexpectedToken token.kind token.value wanted) token.span

/-- Fails because the current token would be nested too deep. -/
def tooDeep : Rule α := do
  let state ← get
  refuse (.tooDeep state.nesting.limit) state.cursor.current.span

/-- The current token if it is of a kind, which messages call `what`; the cursor moves behind. -/
def expect (kind : TokenKind) (what : String) : Rule Token := do
  let token ← current
  if token.kind = kind then advance else unexpected token [what]

/-! ## Nesting -/

/-- The number of levels that may still be entered. -/
def room : Rule Nat := do
  return (← get).nesting.room

/-- A rule one level deeper. The level is left again whether the rule succeeds or fails. -/
def nested (body : Rule α) : Rule α := fun state =>
  match state.nesting.enter? with
  | none => tooDeep state
  | some deeper =>
    match body { state with nesting := deeper } with
    | .ok value final => .ok value { final with nesting := final.nesting.leave }
    | .error failure final => .error failure { final with nesting := final.nesting.leave }

/-! ## Repetition -/

/-- The outcome of a round of a repetition. -/
inductive Round (α β : Type) where
  /-- Another round follows. -/
  | again (value : α)
  /-- The repetition is over. -/
  | done (value : β)
  deriving Repr

/-- At most `rounds` rounds of a repetition. -/
def iterate (round : α → Rule (Round α β)) : Nat → α → Rule β
  | 0, _ => throw .exhausted
  | rounds + 1, value => do
    match ← round value with
    | .again next => iterate round rounds next
    | .done result => return result

/-- Rounds until one is the last. Each round that another follows has to consume a token, so the
tokens ahead bound their number. -/
def loop (round : α → Rule (Round α β)) (value : α) : Rule β := do
  iterate round ((← get).cursor.after.length + 2) value

/-- A round of items up to a closing token, with a separator between them. -/
def delimitedRound (close : TokenKind) (separator : Rule Unit) (item : Rule α) (items : List α) :
    Rule (Round (List α) (List α)) := do
  if ← isAt close then return .done items
  unless items.isEmpty do separator
  return .again (items ++ [← item])

/-- What stands up to a closing token: items with a separator between them. The closing token is
not consumed. -/
def delimited (close : TokenKind) (separator : Rule Unit) (item : Rule α) : Rule (List α) :=
  loop (delimitedRound close separator item) []

/-- A comma. -/
def comma : Rule Unit := do
  let _ ← expect .comma "','"

/-- A round of items behind separators. -/
def chainRound (separator : TokenKind) (item : Rule α) (items : List α) :
    Rule (Round (List α) (List α)) := do
  if ← isAt separator then
    let _ ← advance
    return .again (items ++ [← item])
  return .done items

/-- One or more items with tokens of kind `separator` between them. -/
def chain (separator : TokenKind) (item : Rule α) : Rule (List α) := do
  let first ← item
  loop (chainRound separator item) [first]

/-! ## Leaves -/

/-- The leaf of the current token; the cursor moves behind it. -/
def leaf (kind : NodeKind) : Rule Node := do
  return Node.leaf kind (← advance)

/-- The leaf of an identifier. -/
def identifier : Rule Node := do
  return Node.leaf .identifier (← expect .identifier "identifier")

end Rule

end DocGrammar
