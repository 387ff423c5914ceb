import DocGrammar.Proofs.Rules.Leaving
import DocGrammar.Pseudo.Expression

/-! # The layered grammar of expressions

The grammar of expressions as it reads without binding powers, with a level of its own for each row
of infix operators:

* level := level of the next row (operator of the row, NL*, level of the next row)*, grouped to the
  left, and behind the last row unary;
* unary := (`!` | `-`) unary, or postfix;
* postfix := atom (`.` NAME | `.` NAME arguments | `::` NAME | arguments)*, where `::` and arguments
  go on with a name or a scoped name only;
* atom := NUMBER, STRING, TRUTH, NAME, `(` expression `)`, `[` items `]`, or `{` NL* properties `}`;
* arguments := `(` items `)`, and items are expressions with commas between them;
* properties := nothing, or property NL* (`,` NL* property NL*)*;
* property := (NAME | STRING) `:` expression.

It is read from the left with a single token of look-ahead: a repetition ends only in front of a
token that does not go on with it. A derivation leads from the tokens that it starts at to a tree
and the tokens that it leaves.

* **`operatorRows`** — the rows of infix operators.
* **`Layered.Level`** — the derivations of an expression.
* **`Layered.Level.stops`** — what stands behind an expression does not go on with it. -/

namespace DocGrammar

open Expression

/-! ## Tokens of the grammar -/

/-- The infix operators row by row, the loosest first. -/
def operatorRows : List (List TokenKind) :=
  [[.pipeArrow], [.or], [.and],
    [.equal, .notEqual, .less, .greater, .lessEqual, .greaterEqual],
    [.dotDot], [.plus, .minus], [.star, .slash, .percent]]

/-- The node of a token that is an expression by itself. -/
def leafKind? : TokenKind → Option NodeKind
  | .numberLit => some .number
  | .stringLit => some .stringLiteral
  | .booleanLit => some .boolean
  | .identifier => some .identifier
  | _ => none

/-- The node of a token that is a property key. -/
def keyKind? : TokenKind → Option NodeKind
  | .identifier => some .identifier
  | .stringLit => some .stringLiteral
  | _ => none

theorem leafKind?_eq_some {kind : TokenKind} {node : NodeKind}
    (known : leafKind? kind = some node) :
    kind = .numberLit ∧ node = .number ∨ kind = .stringLit ∧ node = .stringLiteral ∨
      kind = .booleanLit ∧ node = .boolean ∨ kind = .identifier ∧ node = .identifier := by
  revert known
  cases kind <;> simp [leafKind?, eq_comm]

theorem keyKind?_eq_some {kind : TokenKind} {node : NodeKind}
    (known : keyKind? kind = some node) :
    kind = .identifier ∧ node = .identifier ∨ kind = .stringLit ∧ node = .stringLiteral := by
  revert known
  cases kind <;> simp [keyKind?, eq_comm]

/-! ## Nodes of the grammar -/

/-- The node of a unary operator before its operand. -/
def signNode (sign : Token) (value : Node) : Node :=
  (Node.spanning .unaryExpression [value] (value.spanFrom sign.span)).withText sign.value

/-- The argument list of a call, or nothing if there are no arguments. -/
def argumentList (values : List Node) : List Node :=
  if values.isEmpty then [] else [.branch .argumentList values]

/-- The token before the current one behind arguments is their closing parenthesis. -/
theorem arguments_bind_previous {β : Type} (inner : Nat → Rule Node)
    (next : List Node → Token → Rule β) :
    (do let values ← arguments inner; next values (← Rule.previous)) =
      (do
        let _ ← Rule.advance
        let values ← Rule.delimited .rightParen Rule.comma (inner 0)
        let _ ← Rule.advance
        next (argumentList values) (← Rule.previous)) := by
  simp only [arguments, bind_assoc, pure_bind]
  rfl

/-- The node of a method call. -/
def methodNode (receiver name : Node) (values : List Node) (close : Token) : Node :=
  .spanning .methodCall (receiver :: name :: argumentList values) (receiver.spanTo close.span)

/-- The node of a call. -/
def callNode (callee : Node) (values : List Node) (close : Token) : Node :=
  .spanning (if isSystemVerb callee then .systemFunctionCall else .functionCall)
    (callee :: argumentList values) (callee.spanTo close.span)

/-! ## Derivations -/

namespace Layered

/-- Whether a token of some kind goes on with an expression whose operators stand in some rows. -/
def Continues (rows : List (List TokenKind)) (node : Node) (kind : TokenKind) : Prop :=
  kind = .dot ∨ (isName node = true ∧ (kind = .doubleColon ∨ kind = .leftParen)) ∨
    ∃ row ∈ rows, kind ∈ row

/-- Whether an expression ends in front of some tokens. -/
def Stops (rows : List (List TokenKind)) (node : Node) (rest : List Token) : Prop :=
  ∃ next others, rest = next :: others ∧ ¬Continues rows node next.kind

mutual

/-- An expression whose infix operators stand in some rows, the loosest first. -/
inductive Level : List (List TokenKind) → List Token → Node → List Token → Prop
  /-- Without infix operators, it is a unary expression. -/
  | unary {tokens rest : List Token} {node : Node} (only : Unary tokens node rest) :
      Level [] tokens node rest
  /-- The operators of the loosest row stand between expressions of the others. -/
  | row {row : List TokenKind} {tighter : List (List TokenKind)}
      {tokens between rest : List Token} {first node : Node}
      (operand : Level tighter tokens first between)
      (others : Row row tighter first between node rest) : Level (row :: tighter) tokens node rest

/-- What the operators of a row make of the operand before them. -/
inductive Row : List TokenKind → List (List TokenKind) → Node → List Token → Node → List Token →
    Prop
  /-- No operator of the row follows. -/
  | stop {row : List TokenKind} {tighter : List (List TokenKind)} {left : Node} {next : Token}
      {others : List Token} (other : next.kind ∉ row) :
      Row row tighter left (next :: others) left (next :: others)
  /-- An operator with its right operand, and the operators behind them. -/
  | operator {row : List TokenKind} {tighter : List (List TokenKind)} {left right node : Node}
      {operator : Token} {behind between rest : List Token} (member : operator.kind ∈ row)
      (operand : Level tighter (behindFeeds behind) right between)
      (others : Row row tighter (infixNode operator left right) between node rest) :
      Row row tighter left (operator :: behind) node rest

/-- An expression without infix operators. -/
inductive Unary : List Token → Node → List Token → Prop
  /-- A unary operator and its operand. -/
  | sign {sign : Token} {behind rest : List Token} {value : Node}
      (marks : sign.kind = .bang ∨ sign.kind = .minus) (operand : Unary behind value rest) :
      Unary (sign :: behind) (signNode sign value) rest
  /-- An atom and what stands behind it. -/
  | atom {tokens between rest : List Token} {first node : Node}
      (start : Atom tokens first between) (others : Postfix first between node rest) :
      Unary tokens node rest

/-- What postfix forms make of the expression before them. -/
inductive Postfix : Node → List Token → Node → List Token → Prop
  /-- No postfix form follows. -/
  | stop {left : Node} {rest : List Token} (stops : Stops [] left rest) :
      Postfix left rest left rest
  /-- The access to a property. -/
  | property {left node : Node} {dot name next : Token} {behind rest : List Token}
      (accesses : dot.kind = .dot) (names : name.kind = .identifier)
      (uncalled : next.kind ≠ .leftParen)
      (others : Postfix (extend .propertyAccess left (.leaf .identifier name)) (next :: behind)
        node rest) :
      Postfix left (dot :: name :: next :: behind) node rest
  /-- The call of a method. -/
  | method {left node : Node} {dot name opening close : Token} {behind between rest : List Token}
      {values : List Node} (accesses : dot.kind = .dot) (names : name.kind = .identifier)
      (opens : opening.kind = .leftParen)
      (given : Items .rightParen behind values (close :: between))
      (others : Postfix (methodNode left (.leaf .identifier name) values close) between node rest) :
      Postfix left (dot :: name :: opening :: behind) node rest
  /-- A name in the scope of a name. -/
  | scope {left node : Node} {mark name : Token} {behind rest : List Token}
      (scopes : mark.kind = .doubleColon) (named : isName left = true)
      (names : name.kind = .identifier)
      (others : Postfix (extend .scopedIdentifier left (.leaf .identifier name)) behind node rest) :
      Postfix left (mark :: name :: behind) node rest
  /-- The call of a name. -/
  | call {left node : Node} {opening close : Token} {behind between rest : List Token}
      {values : List Node} (opens : opening.kind = .leftParen) (named : isName left = true)
      (given : Items .rightParen behind values (close :: between))
      (others : Postfix (callNode left values close) between node rest) :
      Postfix left (opening :: behind) node rest

/-- What an expression starts with, unless that is a unary operator. -/
inductive Atom : List Token → Node → List Token → Prop
  /-- A token by itself. -/
  | leaf {token : Token} {rest : List Token} {kind : NodeKind}
      (known : leafKind? token.kind = some kind) : Atom (token :: rest) (.leaf kind token) rest
  /-- An expression between parentheses, which leave no node behind. -/
  | parentheses {opening close : Token} {behind rest : List Token} {node : Node}
      (opens : opening.kind = .leftParen) (inner : Level operatorRows behind node (close :: rest))
      (closes : close.kind = .rightParen) : Atom (opening :: behind) node rest
  /-- An array literal. -/
  | array {opening close : Token} {behind rest : List Token} {elements : List Node}
      (opens : opening.kind = .leftBracket)
      (inner : Items .rightBracket behind elements (close :: rest)) :
      Atom (opening :: behind)
        (.spanning .arrayLiteral elements (some (opening.span.through close.span))) rest
  /-- An object literal. -/
  | object {opening close : Token} {behind rest : List Token} {properties : List Node}
      (opens : opening.kind = .leftBrace)
      (inner : Properties (behindFeeds behind) properties (close :: rest)) :
      Atom (opening :: behind)
        (.spanning .objectLiteral properties (some (opening.span.through close.span))) rest

/-- Expressions with commas between them, up to a closing token. -/
inductive Items : TokenKind → List Token → List Node → List Token → Prop
  /-- The closing token follows. -/
  | none {close : TokenKind} {next : Token} {others : List Token} (closes : next.kind = close) :
      Items close (next :: others) [] (next :: others)
  /-- An expression and those behind it. -/
  | some {close : TokenKind} {next : Token} {others between rest : List Token} {node : Node}
      {nodes : List Node} (opens : next.kind ≠ close)
      (first : Level operatorRows (next :: others) node between)
      (more : MoreItems close between nodes rest) :
      Items close (next :: others) (node :: nodes) rest

/-- The expressions behind the first one. -/
inductive MoreItems : TokenKind → List Token → List Node → List Token → Prop
  /-- The closing token follows. -/
  | none {close : TokenKind} {next : Token} {others : List Token} (closes : next.kind = close) :
      MoreItems close (next :: others) [] (next :: others)
  /-- A comma, an expression and those behind it. -/
  | comma {close : TokenKind} {mark : Token} {behind between rest : List Token} {node : Node}
      {nodes : List Node} (separates : mark.kind = .comma) (opens : mark.kind ≠ close)
      (next : Level operatorRows behind node between) (more : MoreItems close between nodes rest) :
      MoreItems close (mark :: behind) (node :: nodes) rest

/-- The properties of an object literal, up to its closing brace. -/
inductive Properties : List Token → List Node → List Token → Prop
  /-- The closing brace follows. -/
  | none {next : Token} {others : List Token} (closes : next.kind = .rightBrace) :
      Properties (next :: others) [] (next :: others)
  /-- A property and those behind it. -/
  | some {tokens between rest : List Token} {node : Node} {nodes : List Node}
      (first : Property tokens node between)
      (more : MoreProperties (behindFeeds between) nodes rest) :
      Properties tokens (node :: nodes) rest

/-- The properties behind the first one. -/
inductive MoreProperties : List Token → List Node → List Token → Prop
  /-- The closing brace follows. -/
  | none {next : Token} {others : List Token} (closes : next.kind = .rightBrace) :
      MoreProperties (next :: others) [] (next :: others)
  /-- A comma, a property and those behind it. -/
  | comma {mark : Token} {behind between rest : List Token} {node : Node} {nodes : List Node}
      (separates : mark.kind = .comma) (next : Property (behindFeeds behind) node between)
      (more : MoreProperties (behindFeeds between) nodes rest) :
      MoreProperties (mark :: behind) (node :: nodes) rest

/-- A property of an object literal. -/
inductive Property : List Token → Node → List Token → Prop
  /-- A key, a colon and a value. -/
  | of {key colon : Token} {behind rest : List Token} {kind : NodeKind} {value : Node}
      (keyed : keyKind? key.kind = some kind) (parts : colon.kind = .colon)
      (given : Level operatorRows behind value rest) :
      Property (key :: colon :: behind) (.branch .objectProperty [.leaf kind key, value]) rest

end

/-! ## Where derivations stop -/

section

variable {rows : List (List TokenKind)} {node other : Node} {rest others : List Token}
  {next : Token}

theorem stops_cons (ends : ¬Continues rows node next.kind) : Stops rows node (next :: others) :=
  ⟨next, others, rfl, ends⟩

/-- Fewer tokens go on with a node that is no name. -/
theorem Stops.of_unnamed (stops : Stops rows node rest) (unnamed : isName other = false) :
    Stops rows other rest := by
  obtain ⟨next, others, rfl, ends⟩ := stops
  refine stops_cons fun goes => ends ?_
  rcases goes with dot | ⟨named, _⟩ | operator
  · exact .inl dot
  · exact absurd named (by simp [unnamed])
  · exact .inr (.inr operator)

/-- With fewer rows of operators there are fewer tokens that go on. -/
theorem Stops.mono {fewer : List (List TokenKind)} (stops : Stops rows node rest)
    (subset : fewer ⊆ rows) : Stops fewer node rest := by
  obtain ⟨next, others, rfl, ends⟩ := stops
  refine stops_cons fun goes => ends ?_
  rcases goes with dot | name | ⟨row, member, operator⟩
  · exact .inl dot
  · exact .inr (.inl name)
  · exact .inr (.inr ⟨row, subset member, operator⟩)

/-- With a looser row of operators, none of them may follow either. -/
theorem Stops.cons {row : List TokenKind} (stops : Stops rows node (next :: others))
    (other : next.kind ∉ row) : Stops (row :: rows) node (next :: others) := by
  obtain ⟨_, _, same, ends⟩ := stops
  cases same
  refine stops_cons fun goes => ends ?_
  rcases goes with dot | name | ⟨found, member, operator⟩
  · exact .inl dot
  · exact .inr (.inl name)
  · rcases List.mem_cons.mp member with rfl | tighter
    · exact absurd operator other
    · exact .inr (.inr ⟨found, tighter, operator⟩)

theorem isName_infixNode (operator : Token) (left right : Node) :
    isName (infixNode operator left right) = false := by
  unfold infixNode
  split <;> rfl

theorem isName_signNode (sign : Token) (value : Node) : isName (signNode sign value) = false := rfl

end

/-- Where no postfix form follows, there is none. -/
theorem Postfix.eq_of_stops {left node : Node} {tokens rest : List Token}
    (forms : Postfix left tokens node rest) (stops : Stops [] left tokens) :
    node = left ∧ rest = tokens := by
  obtain ⟨next, others, rfl, ends⟩ := stops
  cases forms with
  | stop => exact ⟨rfl, rfl⟩
  | property accesses => exact absurd (.inl accesses) ends
  | method accesses => exact absurd (.inl accesses) ends
  | scope scopes named => exact absurd (.inr (.inl ⟨named, .inl scopes⟩)) ends
  | call opens named => exact absurd (.inr (.inl ⟨named, .inr opens⟩)) ends

/-- Where no operator of a row follows, there is none. -/
theorem Row.eq_of_stops {row : List TokenKind} {tighter : List (List TokenKind)}
    {left node : Node} {tokens rest : List Token}
    (operators : Row row tighter left tokens node rest)
    (stops : Stops (row :: tighter) left tokens) : node = left ∧ rest = tokens := by
  obtain ⟨next, others, rfl, ends⟩ := stops
  cases operators with
  | stop => exact ⟨rfl, rfl⟩
  | operator member => exact absurd (.inr (.inr ⟨row, List.mem_cons_self, member⟩)) ends

theorem Postfix.stops : ∀ {left : Node} {tokens : List Token} {node : Node} {rest : List Token},
    Postfix left tokens node rest → Stops [] node rest
  | _, _, _, _, .stop stops => stops
  | _, _, _, _, .property _ _ _ others => others.stops
  | _, _, _, _, .method _ _ _ _ others => others.stops
  | _, _, _, _, .scope _ _ _ others => others.stops
  | _, _, _, _, .call _ _ _ others => others.stops

theorem Unary.stops : ∀ {tokens : List Token} {node : Node} {rest : List Token},
    Unary tokens node rest → Stops [] node rest
  | _, _, _, .sign _ operand => operand.stops.of_unnamed (isName_signNode _ _)
  | _, _, _, .atom _ others => others.stops

mutual

/-- What stands behind an expression does not go on with it. -/
theorem Level.stops : ∀ {rows : List (List TokenKind)} {tokens : List Token} {node : Node}
    {rest : List Token}, Level rows tokens node rest → Stops rows node rest
  | _, _, _, _, .unary only => only.stops
  | _, _, _, _, .row operand others => others.stops operand.stops

theorem Row.stops : ∀ {row : List TokenKind} {tighter : List (List TokenKind)} {left : Node}
    {tokens : List Token} {node : Node} {rest : List Token},
    Row row tighter left tokens node rest → Stops tighter left tokens →
      Stops (row :: tighter) node rest
  | _, _, _, _, _, _, .stop other, stops => stops.cons other
  | _, _, _, _, _, _, .operator _ operand others, _ =>
    others.stops (operand.stops.of_unnamed (isName_infixNode _ _ _))

end

theorem MoreItems.closes : ∀ {close : TokenKind} {tokens : List Token} {nodes : List Node}
    {rest : List Token}, MoreItems close tokens nodes rest →
      ∃ next others, rest = next :: others ∧ next.kind = close
  | _, _, _, _, .none closes => ⟨_, _, rfl, closes⟩
  | _, _, _, _, .comma _ _ _ more => more.closes

/-- Behind items the closing token stands. -/
theorem Items.closes {close : TokenKind} {tokens rest : List Token} {nodes : List Node}
    (items : Items close tokens nodes rest) :
    ∃ next others, rest = next :: others ∧ next.kind = close := by
  cases items with
  | none closes => exact ⟨_, _, rfl, closes⟩
  | some _ _ more => exact more.closes

theorem MoreProperties.closes : ∀ {tokens : List Token} {nodes : List Node} {rest : List Token},
    MoreProperties tokens nodes rest → ∃ next others, rest = next :: others ∧
      next.kind = .rightBrace
  | _, _, _, .none closes => ⟨_, _, rfl, closes⟩
  | _, _, _, .comma _ _ more => more.closes

/-- Behind properties the closing brace stands. -/
theorem Properties.closes {tokens rest : List Token} {nodes : List Node}
    (properties : Properties tokens nodes rest) :
    ∃ next others, rest = next :: others ∧ next.kind = .rightBrace := by
  cases properties with
  | none closes => exact ⟨_, _, rfl, closes⟩
  | some _ more => exact more.closes

/-- A property starts with its key. -/
theorem Property.exists_key {tokens rest : List Token} {node : Node}
    (property : Property tokens node rest) :
    ∃ key others, tokens = key :: others ∧ key.kind ≠ .rightBrace := by
  cases property with
  | of keyed =>
    refine ⟨_, _, rfl, fun closes => ?_⟩
    rw [closes] at keyed
    cases keyed

/-! ## How many tokens derivations leave -/

theorem length_behindFeeds_le (tokens : List Token) :
    (behindFeeds tokens).length ≤ tokens.length := (behindFeeds_suffix tokens).length_le

mutual

/-- An expression leaves fewer tokens than it starts at. -/
theorem Level.length_lt : ∀ {rows : List (List TokenKind)} {tokens : List Token} {node : Node}
    {rest : List Token}, Level rows tokens node rest → rest.length < tokens.length
  | _, _, _, _, .unary only => only.length_lt
  | _, _, _, _, .row operand others => others.length_le.trans_lt operand.length_lt

theorem Row.length_le : ∀ {row : List TokenKind} {tighter : List (List TokenKind)} {left : Node}
    {tokens : List Token} {node : Node} {rest : List Token},
    Row row tighter left tokens node rest → rest.length ≤ tokens.length
  | _, _, _, _, _, _, .stop _ => le_rfl
  | _, _, _, _, _, _, .operator _ operand others => by
    have inner := others.length_le.trans_lt operand.length_lt
    exact (inner.le.trans (length_behindFeeds_le _)).trans (Nat.le_succ _)

theorem Unary.length_lt : ∀ {tokens : List Token} {node : Node} {rest : List Token},
    Unary tokens node rest → rest.length < tokens.length
  | _, _, _, .sign _ operand => Nat.lt_succ_of_lt operand.length_lt
  | _, _, _, .atom start others => others.length_le.trans_lt start.length_lt

theorem Postfix.length_le : ∀ {left : Node} {tokens : List Token} {node : Node} {rest : List Token},
    Postfix left tokens node rest → rest.length ≤ tokens.length
  | _, _, _, _, .stop _ => le_rfl
  | _, _, _, _, .property _ _ _ others => others.length_le.trans (by simp)
  | _, _, _, _, .method _ _ _ given others => by
    have inner := given.length_le
    have behind := others.length_le
    simp only [List.length_cons] at inner ⊢
    omega
  | _, _, _, _, .scope _ _ _ others => others.length_le.trans (Nat.le_add_right _ 2)
  | _, _, _, _, .call _ _ given others => by
    have inner := given.length_le
    have behind := others.length_le
    simp only [List.length_cons] at inner ⊢
    omega

theorem Atom.length_lt : ∀ {tokens : List Token} {node : Node} {rest : List Token},
    Atom tokens node rest → rest.length < tokens.length
  | _, _, _, .leaf _ => Nat.lt_succ_self _
  | _, _, _, .parentheses _ inner _ => Nat.lt_succ_of_lt (Nat.lt_of_succ_lt inner.length_lt)
  | _, _, _, .array _ inner => Nat.lt_succ_of_le (Nat.le_of_succ_le inner.length_le)
  | _, _, _, .object _ inner => by
    have inside := inner.length_le.trans (length_behindFeeds_le _)
    exact Nat.lt_succ_of_le (Nat.le_of_succ_le inside)

theorem Items.length_le : ∀ {close : TokenKind} {tokens : List Token} {nodes : List Node}
    {rest : List Token}, Items close tokens nodes rest → rest.length ≤ tokens.length
  | _, _, _, _, .none _ => le_rfl
  | _, _, _, _, .some _ first more => more.length_le.trans first.length_lt.le

theorem MoreItems.length_le : ∀ {close : TokenKind} {tokens : List Token} {nodes : List Node}
    {rest : List Token}, MoreItems close tokens nodes rest → rest.length ≤ tokens.length
  | _, _, _, _, .none _ => le_rfl
  | _, _, _, _, .comma _ _ next more =>
    more.length_le.trans (next.length_lt.le.trans (Nat.le_succ _))

theorem Properties.length_le : ∀ {tokens : List Token} {nodes : List Node} {rest : List Token},
    Properties tokens nodes rest → rest.length ≤ tokens.length
  | _, _, _, .none _ => le_rfl
  | _, _, _, .some first more =>
    more.length_le.trans ((length_behindFeeds_le _).trans first.length_lt.le)

theorem MoreProperties.length_le : ∀ {tokens : List Token} {nodes : List Node} {rest : List Token},
    MoreProperties tokens nodes rest → rest.length ≤ tokens.length
  | _, _, _, .none _ => le_rfl
  | _, _, _, .comma _ next more => by
    have inner := next.length_lt.trans_le (length_behindFeeds_le _)
    exact (more.length_le.trans (length_behindFeeds_le _)).trans (inner.le.trans (Nat.le_succ _))

theorem Property.length_lt : ∀ {tokens : List Token} {node : Node} {rest : List Token},
    Property tokens node rest → rest.length < tokens.length
  | _, _, _, .of _ _ given => given.length_lt.trans_le (Nat.le_add_right _ 2)

end

end Layered

/-! ## Rows and binding powers -/

/-- The rows whose operators have at least a power toward the left. -/
def rowsFrom (least : Nat) : List (List TokenKind) := operatorRows.drop (least / 2)

/-- The binding powers count the rows. -/
theorem infixPower?_eq_some_iff {kind : TokenKind} {power : BindingPower} :
    infixPower? kind = some power ↔ ∃ index row, operatorRows[index]? = some row ∧ kind ∈ row ∧
      power = ⟨2 * index + 1, 2 * index + 2⟩ := by
  constructor
  · have counts : infixPower? kind = (operatorRows.findIdx? (kind ∈ ·)).map
        fun index => ⟨2 * index + 1, 2 * index + 2⟩ := by
      cases kind <;> rfl
    intro known
    rw [counts, Option.map_eq_some_iff] at known
    obtain ⟨index, found, rfl⟩ := known
    obtain ⟨bound, member, _⟩ := List.findIdx?_eq_some_iff_getElem.mp found
    exact ⟨index, _, List.getElem?_eq_getElem bound, of_decide_eq_true member, rfl⟩
  · rintro ⟨index, row, found, member, rfl⟩
    have rows : ∀ place ∈ operatorRows.zipIdx, ∀ kind ∈ place.1,
        infixPower? kind = some ⟨2 * place.2 + 1, 2 * place.2 + 2⟩ := by decide
    exact rows (row, index) (List.mk_mem_zipIdx_iff_getElem?.mpr found) kind member

variable {kind : TokenKind} {power : BindingPower} {least index : Nat} {row : List TokenKind}
  {tighter : List (List TokenKind)}

/-- An operator has the powers of its row. -/
theorem infixPower?_of_mem (rows : operatorRows.drop index = row :: tighter) (member : kind ∈ row) :
    infixPower? kind = some ⟨2 * index + 1, 2 * index + 2⟩ ∧
      tighter = rowsFrom (2 * index + 2) := by
  have found : operatorRows[index]? = some row := by
    rw [← Nat.add_zero index, ← List.getElem?_drop, rows]
    rfl
  refine ⟨infixPower?_eq_some_iff.mpr ⟨index, row, found, member, rfl⟩, ?_⟩
  have others : operatorRows.drop (index + 1) = tighter := by
    rw [← List.drop_drop, rows]
    rfl
  rw [← others, rowsFrom]
  congr 1
  omega

/-- An operator with at least some power stands in one of its rows, and in none of the tighter
ones. -/
theorem exists_rowsFrom_suffix (known : infixPower? kind = some power)
    (binds : least ≤ power.left) : ∃ row, row :: rowsFrom power.right <:+ rowsFrom least ∧
      kind ∈ row ∧ ∀ other ∈ rowsFrom power.right, kind ∉ other := by
  obtain ⟨index, row, found, member, rfl⟩ := infixPower?_eq_some_iff.mp known
  have right : rowsFrom (2 * index + 2) = operatorRows.drop (index + 1) := by
    rw [rowsFrom]
    congr 1
    omega
  have own : row :: operatorRows.drop (index + 1) = operatorRows.drop index := by
    obtain ⟨bound, rfl⟩ := List.getElem?_eq_some_iff.mp found
    exact (List.drop_eq_getElem_cons bound).symm
  refine ⟨row, ?_, member, fun other tighter twice => ?_⟩
  · have within : least / 2 + (index - least / 2) = index := by
      have : least ≤ 2 * index + 1 := binds
      omega
    rw [right, own, rowsFrom, ← within, ← List.drop_drop]
    exact List.drop_suffix _ _
  · -- an operator in a tighter row would have two powers
    rw [right] at tighter
    obtain ⟨more, bound, rfl⟩ := List.mem_drop_iff_getElem.mp tighter
    have again := infixPower?_eq_some_iff.mpr
      ⟨index + 1 + more, _, List.getElem?_eq_getElem _, twice, rfl⟩
    rw [known] at again
    have same := congrArg BindingPower.left (Option.some.inj again)
    simp only at same
    omega

/-- A token that is no operator with at least some power stands in none of its rows. -/
theorem not_mem_rowsFrom
    (below : ∀ power, infixPower? kind = some power → power.left < least) :
    ∀ row ∈ rowsFrom least, kind ∉ row := by
  intro row member operator
  obtain ⟨more, bound, rfl⟩ := List.mem_drop_iff_getElem.mp member
  have known := infixPower?_eq_some_iff.mpr
    ⟨least / 2 + more, _, List.getElem?_eq_getElem _, operator, rfl⟩
  have less : 2 * (least / 2 + more) + 1 < least := below _ known
  omega

end DocGrammar
