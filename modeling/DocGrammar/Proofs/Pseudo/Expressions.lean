import DocGrammar.Proofs.Pseudo.Rounds

/-! # Expressions are read back

The rule of expressions reads the symbols of every expression that there is room for and builds its
node. An expression is read from the left: what opens it is an operand, and each round extends what
has been read so far. So the claim about an expression is about all that may still follow it.

* **`Expression.Opens`** — symbols that open an expression, whatever rounds follow.
* **`ExpressionTree.opens`** — the symbols of an expression open it.
* **`ExpressionTree.reads`** — the rule of expressions reads every expression. -/

namespace DocGrammar

open Rule RuleState

namespace Expression

/-! ## What opens an expression -/

/-- Whether some symbols open an expression of a given power: behind them the rounds go on with a
node for the symbols, provided that what follows is admitted. -/
def Opens (levels room least : Nat) (symbols : List (Symbol .pseudo)) (node : Node)
    (follow : List Token → Prop) : Prop :=
  ∀ (read more rest : List Token) (good : Node → Prop), Says read symbols → follow (more ++ rest) →
    (∀ left, left.bare = node → LoopReads (tail (upTo levels) least) left room more rest good) →
    (operand (upTo levels) >>= loop (tail (upTo levels) least)).Reads room (read ++ more) rest good

variable {levels room least : Nat} {symbols extra : List (Symbol .pseudo)} {node wider : Node}
  {follow later : List Token → Prop}

/-- What is read as an operand opens an expression. -/
theorem opens_operand
    (reads : ∀ read rest, Says read symbols → follow rest →
      (operand (upTo levels)).Reads room read rest (·.bare = node)) :
    Opens levels room least symbols node follow := by
  intro read more rest good told follows rounds
  refine (reads read (more ++ rest) told follows).bind fun left holds => ?_
  exact (rounds left holds).loop

/-- A round extends what opens an expression. -/
theorem Opens.extend (opens : Opens levels room least symbols node follow)
    (nonempty : extra ≠ [])
    (round : ∀ left read rest, left.bare = node → Says read extra → later rest →
      (tail (upTo levels) least left).Reads room read rest (Round.IsAgain (·.bare = wider)))
    (goesOn : ∀ read rest, Says read extra → later rest → follow (read ++ rest)) :
    Opens levels room least (symbols ++ extra) wider later := by
  intro read more rest good told follows rounds
  obtain ⟨first, second, rfl, saysFirst, saysSecond⟩ := told.of_append
  rw [List.append_assoc]
  refine opens first (second ++ more) rest good saysFirst ?_ fun left holds => ?_
  · rw [List.append_assoc]
    exact goesOn second (more ++ rest) saysSecond follows
  · have consumes : second ≠ [] := by
      rintro rfl
      cases saysSecond
      exact nonempty rfl
    exact LoopReads.again second (round left second (more ++ rest) holds saysSecond follows)
      consumes rounds

/-- What opens an expression is one where no round follows. -/
theorem Opens.reads (opens : Opens levels room least symbols node follow) {read rest : List Token}
    (told : Says read symbols) (follows : follow rest) (ends : EndsAt least rest) :
    (upTo (levels + 1) least).Reads (room + 1) read rest (·.bare = node) := by
  have whole := opens read [] rest (·.bare = node) told follows fun left holds =>
    (LoopReads.done (reads_tail_done ends left)).mono fun result same => by rw [same, holds]
  rw [List.append_nil] at whole
  exact whole.nested

/-- What is asked of the tokens behind an expression of a given power. -/
structure Follows (power : Nat) (rest : List Token) : Prop where
  /-- They do not make it a call. -/
  noCall : AvoidsHead [.leftParen] rest
  /-- They do not go on with the last operand of an operation. -/
  ends : power < postfixPower → EndsAt (power + 1) rest

theorem EndsAt.follows {power : Nat} {rest : List Token} (ends : EndsAt least rest)
    (binds : least ≤ power) : Follows power rest :=
  ⟨ends.noPostfix.mono (by simp), fun _ => ends.mono (Nat.le_succ_of_le binds)⟩

/-- The kinds of tokens that an expression starts with. -/
def operandKinds : List TokenKind :=
  [.numberLit, .stringLit, .booleanLit, .identifier, .bang, .minus, .leftParen, .leftBracket,
    .leftBrace]

end Expression

open Expression

/-! ## How expressions start -/

/-- What is guarded starts like what is not, or with a parenthesis. -/
theorem exists_guarded {symbols : List (Symbol .pseudo)} (power least : Nat)
    (starts : ∃ first others, symbols = first :: others ∧ first.kind ∈ operandKinds) :
    ∃ first others, guarded power least symbols = first :: others ∧
      first.kind ∈ operandKinds := by
  unfold guarded
  split
  · exact ⟨_, _, rfl, by decide⟩
  · exact starts

/-- An expression starts with a symbol of an operand. -/
theorem ExpressionTree.exists_symbols (tree : ExpressionTree) :
    ∃ first others, tree.symbols = first :: others ∧ first.kind ∈ operandKinds := by
  cases tree with
  | number _ => exact ⟨_, _, rfl, by simp [Symbol.kind, operandKinds]⟩
  | string _ => exact ⟨_, _, rfl, by simp [Symbol.kind, operandKinds]⟩
  | boolean value => exact ⟨_, _, rfl, by cases value <;> decide⟩
  | name path => exact ⟨_, _, rfl, by simp [Symbol.name, Symbol.kind, operandKinds]⟩
  | call callee _ => exact ⟨_, _, rfl, by simp [Symbol.name, Symbol.kind, operandKinds]⟩
  -- a form with an operand in front starts where the operand does
  | method receiver _ _ =>
    obtain ⟨first, others, symbols, kind⟩ :=
      exists_guarded receiver.power postfixPower receiver.exists_symbols
    exact ⟨first, _, by rw [ExpressionTree.symbols, symbols]; rfl, kind⟩
  | member receiver _ =>
    obtain ⟨first, others, symbols, kind⟩ :=
      exists_guarded receiver.power postfixPower receiver.exists_symbols
    exact ⟨first, _, by rw [ExpressionTree.symbols, symbols]; rfl, kind⟩
  | unary operator _ => exact ⟨_, _, rfl, by cases operator <;> decide⟩
  | binary operator left _ =>
    obtain ⟨first, others, symbols, kind⟩ :=
      exists_guarded left.power operator.power.left left.exists_symbols
    exact ⟨first, _, by rw [ExpressionTree.symbols, symbols]; rfl, kind⟩
  | array _ => exact ⟨_, _, rfl, by decide⟩
  | object _ => exact ⟨_, _, rfl, by decide⟩

/-- Tokens that say what starts like an expression start with the kind of an operand. -/
theorem startsIn_operandKinds {symbols : List (Symbol .pseudo)} {read : List Token}
    (starts : ∃ first others, symbols = first :: others ∧ first.kind ∈ operandKinds)
    (told : Says read symbols) : StartsIn operandKinds read := by
  obtain ⟨first, others, rfl, member⟩ := starts
  exact told.startsIn member

/-- Whether the symbols of an expression open it wherever it fits: with room for what nests inside
it, and at every power that it binds as tightly as. -/
def ExpressionTree.IsOpened (tree : ExpressionTree) : Prop :=
  ∀ levels room least, tree.inside ≤ levels → tree.inside ≤ room → least ≤ tree.power →
    Expression.Opens levels room least tree.symbols tree.node (Follows tree.power)

/-! ## Operands between parentheses -/

section Guarded

variable {levels room least power : Nat} {symbols : List (Symbol .pseudo)} {node : Node}

/-- An expression between parentheses opens another one. -/
theorem opens_parenthesized (opens : Opens levels room 0 symbols node (Follows power)) :
    Opens (levels + 1) (room + 1) least (parenthesized symbols) node fun _ => True := by
  refine opens_operand fun read rest told _ => ?_
  obtain ⟨opening, body, closing, rfl, tellsOpening, saysBody, tellsClosing⟩ := told.of_enclosed
  have closes : closing.kind = .rightParen := tellsClosing.kind
  have ends : EndsAt 0 (closing :: rest) :=
    endsAt_of_startsIn (startsIn_cons closes (List.mem_singleton_self _)) (by decide) (by decide)
  exact reads_parenthesized tellsOpening.kind closes
    (opens.reads saysBody (ends.follows (Nat.zero_le _)) ends)

/-- An operand opens the expression around it: by itself if it binds tightly enough, otherwise
between parentheses. -/
theorem opens_guarded {tree : ExpressionTree} (least demanded : Nat)
    (opens : tree.IsOpened)
    (enough : guardedInside tree.power demanded tree.inside ≤ levels)
    (roomy : guardedInside tree.power demanded tree.inside ≤ room)
    (binds : least ≤ demanded) :
    Opens levels room least (guarded tree.power demanded tree.symbols) tree.node
      fun rest => demanded ≤ tree.power → Follows tree.power rest := by
  unfold guardedInside at enough roomy
  unfold guarded
  by_cases loose : tree.power < demanded
  · rw [if_pos loose] at enough roomy ⊢
    -- the parentheses take a level of their own, in which any power is allowed
    obtain ⟨levels, rfl⟩ : ∃ inner, levels = inner + 1 := ⟨levels - 1, by omega⟩
    obtain ⟨room, rfl⟩ : ∃ inner, room = inner + 1 := ⟨room - 1, by omega⟩
    have inner := opens levels room 0 (by omega) (by omega) (Nat.zero_le _)
    intro read more rest good told _ rounds
    exact opens_parenthesized inner read more rest good told trivial rounds
  · rw [if_neg loose] at enough roomy ⊢
    have tight : demanded ≤ tree.power := Nat.not_lt.mp loose
    have inner := opens levels room least enough roomy (Nat.le_trans binds tight)
    intro read more rest good told follows rounds
    exact inner read more rest good told (follows tight) rounds

end Guarded

/-! ## Names -/

theorem Path.isName_node (path : Path) : isName path.node = true := by
  obtain ⟨first, others⟩ := path
  have kept : ∀ outer : Node, isName outer = true →
      isName (others.foldl (fun outer name => extendPlain .scopedIdentifier outer (nameNode name))
        outer) = true := by
    induction others with
    | nil => exact fun _ holds => holds
    | cons name others ih => exact fun _ _ => ih _ rfl
  exact kept (nameNode first) rfl

/-- A name with its scopes opens an expression, whatever follows. -/
theorem Path.opens (path : Path) (levels room least : Nat) :
    Opens levels room least path.symbols path.node fun _ => True := by
  obtain ⟨first, others⟩ := path
  -- each scope extends what stands before it, so the path grows from the left
  have further : ∀ (symbols : List (Symbol .pseudo)) (outer : Node), isName outer = true →
      Opens levels room least symbols outer (fun _ => True) →
      Opens levels room least
        (symbols ++ others.flatMap fun name => [.mark .doubleColon, .name name])
        (others.foldl (fun outer name => extendPlain .scopedIdentifier outer (nameNode name)) outer)
        fun _ => True := by
    induction others with
    | nil =>
      intro symbols outer _ opens
      rw [List.flatMap_nil, List.append_nil]
      exact opens
    | cons name others ih =>
      intro symbols outer isName opens
      rw [List.flatMap_cons, ← List.append_assoc]
      refine ih _ _ rfl (opens.extend (List.cons_ne_nil _ _) ?_ fun _ _ _ _ => trivial)
      intro left read rest holds told _
      obtain ⟨mark, _, rfl, tellsMark, saysName⟩ := told.of_cons
      obtain ⟨token, rfl, tells⟩ := saysName.of_singleton
      have callable : Expression.isName left = true := by
        rw [← isName_bare, holds]
        exact isName
      rw [← holds]
      exact reads_scope name tellsMark.kind tells callable rest
  refine further [.name first] (nameNode first) rfl (opens_operand fun read rest told _ => ?_)
  obtain ⟨token, rfl, tells⟩ := told.of_singleton
  have kind : token.kind = .identifier := tells.kind
  have value : token.value = first.text := tells.value
  rw [nameNode, ← value]
  exact reads_leaf kind (by simp)

/-! ## Lists of expressions -/

/-- The kinds of tokens that may stand behind a whole expression. -/
def behindExpression : List TokenKind :=
  [.comma, .rightParen, .rightBracket, .rightBrace, .leftBrace, .newline, .semicolon, .endOfInput]

theorem endsAt_behindExpression {rest : List Token} (starts : StartsIn behindExpression rest) :
    EndsAt 0 rest :=
  endsAt_of_startsIn starts (by decide) (by decide)

section Lists

variable {levels room : Nat} {trees : List ExpressionTree}

/-- The expressions of a list between parentheses or brackets. -/
theorem reads_expressions {close : TokenKind}
    (closes : close = .rightParen ∨ close = .rightBracket)
    (reads : ∀ tree ∈ trees,
      (upTo levels 0).ReadsSymbols room tree.symbols behindExpression (·.bare = tree.node))
    {read : List Token} (told : Says read (separated .comma (expressionSymbols trees)))
    {closing : Token} (kind : closing.kind = close) (rest : List Token) :
    (delimited close comma (upTo levels 0)).Reads room read (closing :: rest)
      (fun values => values.map Node.bare = expressionNodes trees) := by
  rw [expressionSymbols_eq] at told
  rw [expressionNodes_eq]
  refine reads_delimited trees (fun tree member => ?_) (fun token rest kind _ => ?_) ?_ ?_ told kind
    rest
  · refine (reads tree member).mono (Nat.le_refl _) ?_
    rcases closes with rfl | rfl <;> decide
  · exact reads_comma kind rest
  · rcases closes with rfl | rfl <;> decide
  · intro tree _
    obtain ⟨first, others, symbols, member⟩ := tree.exists_symbols
    refine ⟨first, others, symbols, fun same => ?_⟩
    rw [same] at member
    rcases closes with rfl | rfl <;> exact absurd member (by decide)

/-- The arguments of a call. -/
theorem reads_argumentTrees
    (reads : ∀ tree ∈ trees,
      (upTo levels 0).ReadsSymbols room tree.symbols behindExpression (·.bare = tree.node))
    {read : List Token}
    (told : Says read (parenthesized (separated .comma (expressionSymbols trees)))) :
    ∃ opening body closing, read = opening :: (body ++ [closing]) ∧ opening.kind = .leftParen ∧
      ∀ rest, (arguments (upTo levels)).Reads room (opening :: (body ++ [closing])) rest
        (fun values => values.map Node.bare = argumentNodes (expressionNodes trees)) := by
  obtain ⟨opening, body, closing, rfl, tellsOpening, saysTrees, tellsClosing⟩ := told.of_enclosed
  refine ⟨opening, body, closing, rfl, tellsOpening.kind, fun rest => ?_⟩
  exact reads_arguments (reads_expressions (.inl rfl) reads saysTrees tellsClosing.kind rest)

end Lists

/-! ## Operations -/

section Operations

variable {levels room least : Nat}

/-- A symbol that is an operand by itself opens an expression. -/
theorem opens_leaf (symbol : Symbol .pseudo) {nodeKind : NodeKind}
    (leaf : (symbol.kind, nodeKind) ∈ [(TokenKind.numberLit, NodeKind.number),
      (.stringLit, .stringLiteral), (.booleanLit, .boolean), (.identifier, .identifier)])
    (follow : List Token → Prop) :
    Opens levels room least [symbol] (.plainLeaf nodeKind symbol.value) follow := by
  refine opens_operand fun read rest told _ => ?_
  obtain ⟨token, rfl, tells⟩ := told.of_singleton
  rw [← tells.value]
  exact reads_leaf tells.kind leaf

/-- The right operand of an operator is read up to where the operation ends. -/
theorem reads_rightOperand {tree : ExpressionTree} {demanded : Nat}
    (opens : tree.IsOpened)
    (enough : guardedInside tree.power demanded tree.inside + 1 ≤ levels)
    (roomy : guardedInside tree.power demanded tree.inside + 1 ≤ room) {read rest : List Token}
    (told : Says read (guarded tree.power demanded tree.symbols)) (ends : EndsAt demanded rest) :
    (upTo levels demanded).Reads room read rest (·.bare = tree.node) := by
  obtain ⟨levels, rfl⟩ : ∃ inner, levels = inner + 1 := ⟨levels - 1, by omega⟩
  obtain ⟨room, rfl⟩ : ∃ inner, room = inner + 1 := ⟨room - 1, by omega⟩
  have inner : Opens levels room demanded (guarded tree.power demanded tree.symbols) tree.node
      fun rest => demanded ≤ tree.power → Follows tree.power rest :=
    opens_guarded demanded demanded opens (by omega) (by omega) (Nat.le_refl _)
  exact inner.reads told (fun binds => ends.follows binds) ends

/-- A member or a method call goes on behind its receiver. -/
theorem opens_receiver {tree : ExpressionTree}
    (opens : tree.IsOpened)
    (enough : guardedInside tree.power postfixPower tree.inside ≤ levels)
    (roomy : guardedInside tree.power postfixPower tree.inside ≤ room)
    (binds : least ≤ postfixPower) :
    Opens levels room least (guarded tree.power postfixPower tree.symbols) tree.node
      (AvoidsHead [.leftParen]) := by
  have inner := opens_guarded least postfixPower opens enough roomy binds
  intro read more rest good told avoids rounds
  refine inner read more rest good told (fun tight => ⟨avoids, fun loose => ?_⟩) rounds
  omega

end Operations

/-! ## Properties of object literals -/

/-- A key is read as a leaf. -/
theorem reads_propertyKey (key : PropertyKey) {room : Nat} {token : Token}
    (tells : token.Tells key.symbol) (rest : List Token) :
    propertyKey.Reads room [token] rest (·.bare = key.node) := by
  intro nonempty before nesting _
  cases key with
  | name word =>
    have kind : token.kind = .identifier := tells.kind
    have value : token.value = word.text := tells.value
    simp [propertyKey, Rule.leaf, kind, value, nonempty]
    rfl
  | string content =>
    have kind : token.kind = .stringLit := tells.kind
    have value : token.value = content := tells.value
    simp [propertyKey, Rule.leaf, kind, value, nonempty]
    rfl

/-- A property is read with the line ends behind it, of which there are none. -/
theorem reads_entry (key : PropertyKey) (value : ExpressionTree) {levels room : Nat}
    (reads : (upTo levels 0).ReadsSymbols room value.symbols behindExpression
      (·.bare = value.node)) :
    (entry (upTo levels)).ReadsSymbols room (EntryTree.of key value).symbols
      [.comma, .rightBrace] (·.bare = (EntryTree.of key value).node) := by
  intro read rest told starts nonempty before nesting enough
  obtain ⟨token, _, rfl, tellsKey, saysColon⟩ := told.of_cons
  obtain ⟨colon, body, rfl, tellsColon, saysValue⟩ := saysColon.of_cons
  have colonKind : colon.kind = .colon := tellsColon.kind
  have value' := reads body rest saysValue (starts.mono (by decide))
  have avoids : AvoidsHead [.newline] rest := starts.avoidsHead (by decide)
  have skipped : skipNewlines.Reads room [] rest fun _ => True := reads_skip_none avoids
  simp only [entry, property, List.cons_append]
  simp only [ensures_bind]
  refine (reads_propertyKey key tellsKey _).ensures (List.cons_ne_nil _ _) enough
    fun keyNode keyHolds => ?_
  simp [colonKind, nonempty]
  refine value'.ensures nonempty enough fun valueNode valueHolds => ?_
  refine skipped.ensures nonempty enough fun _ _ => ?_
  refine ⟨?_, rfl⟩
  rw [keyHolds, valueHolds]
  rfl

/-- The properties of an object literal are read item by item. -/
theorem reads_objectEntries {levels room : Nat} {trees : List EntryTree}
    (reads : ∀ tree ∈ trees, (entry (upTo levels)).ReadsSymbols room tree.symbols
      [.comma, .rightBrace] (·.bare = tree.node))
    {opening closing : Token} (opens : opening.kind = .leftBrace)
    (closes : closing.kind = .rightBrace) {read : List Token}
    (told : Says read (separated .comma (trees.map EntryTree.symbols))) (rest : List Token) :
    (operand (upTo levels)).Reads room (opening :: (read ++ [closing])) rest
      (·.bare = .plain .objectLiteral (trees.map EntryTree.node)) := by
  -- a property starts with its key, which is neither a line end nor a brace
  have starts : ∀ tree : EntryTree, ∃ first others, tree.symbols = first :: others ∧
      first.kind ∈ [TokenKind.identifier, .stringLit] := by
    rintro ⟨key, value⟩
    refine ⟨key.symbol, _, rfl, ?_⟩
    cases key <;> simp [PropertyKey.symbol, Symbol.name, Symbol.kind]
  have noFeed : AvoidsHead [.newline] (read ++ closing :: rest) := by
    cases trees with
    | nil =>
      cases told
      rw [List.nil_append, avoidsHead_cons, closes]
      decide
    | cons tree others =>
      obtain ⟨first, symbols, spelled, member⟩ := starts tree
      rw [List.map_cons, separated, spelled, List.cons_append] at told
      exact ((told.startsIn member).append _).avoidsHead (by decide)
  refine reads_object opens noFeed (reads_delimited trees reads ?_ (by decide) ?_ told closes rest)
  · rintro token rest kind ⟨tree, _, body, more, saysBody, rfl⟩
    obtain ⟨first, symbols, spelled, member⟩ := starts tree
    rw [spelled] at saysBody
    have avoids : AvoidsHead [.newline] (body ++ more) :=
      ((saysBody.startsIn member).append more).avoidsHead (by decide)
    have skips : skipNewlines.Reads room [] (body ++ more) fun _ => True := reads_skip_none avoids
    have comma' : comma.Reads room [token] ([] ++ (body ++ more)) fun _ => True :=
      reads_comma kind (body ++ more)
    exact comma'.bind fun _ _ => skips
  · intro tree _
    obtain ⟨first, symbols, spelled, member⟩ := starts tree
    refine ⟨first, symbols, spelled, fun same => ?_⟩
    rw [same] at member
    exact absurd member (by decide)

/-! ## Every expression is read

One lemma for each form of expression that has parts: given that its parts are opened or read, the
form is opened. -/

theorem startsIn_guarded {tree : ExpressionTree} {demanded : Nat} {read : List Token}
    (told : Says read (guarded tree.power demanded tree.symbols)) : StartsIn operandKinds read :=
  startsIn_operandKinds (exists_guarded _ _ tree.exists_symbols) told

section Forms

variable {levels room least : Nat}

/-- A call is opened by the name that is called. -/
theorem opens_call (callee : Path) {arguments : List ExpressionTree}
    (reads : ∀ tree ∈ arguments,
      (upTo levels 0).ReadsSymbols room tree.symbols behindExpression (·.bare = tree.node))
    (follow : List Token → Prop) :
    Opens levels room least (ExpressionTree.call callee arguments).symbols
      (ExpressionTree.call callee arguments).node follow := by
  refine (callee.opens levels room least).extend (List.cons_ne_nil _ _) ?_ fun _ _ _ _ => trivial
  intro left read rest holds told _
  obtain ⟨opening, body, closing, rfl, kind, given⟩ := reads_argumentTrees reads told
  have callable : Expression.isName left = true := by
    rw [← isName_bare, holds]
    exact callee.isName_node
  rw [ExpressionTree.node, Path.callKind, ← holds]
  exact reads_call kind callable (given rest)

/-- What starts with a dot goes on behind a receiver. -/
theorem avoidsHead_dot {symbols : List (Symbol .pseudo)} {read : List Token}
    (told : Says read (.mark .dot :: symbols)) (rest : List Token) :
    AvoidsHead [.leftParen] (read ++ rest) := by
  have starts : StartsIn [.dot] read := told.startsIn (by simp [Symbol.kind])
  exact (starts.append rest).avoidsHead (by decide)

/-- A method call is opened by its receiver. -/
theorem opens_method {receiver : ExpressionTree} (opens : receiver.IsOpened) (name : Name)
    {arguments : List ExpressionTree}
    (reads : ∀ tree ∈ arguments,
      (upTo levels 0).ReadsSymbols room tree.symbols behindExpression (·.bare = tree.node))
    (enough : guardedInside receiver.power postfixPower receiver.inside ≤ levels)
    (roomy : guardedInside receiver.power postfixPower receiver.inside ≤ room)
    (binds : least ≤ postfixPower) (follow : List Token → Prop) :
    Opens levels room least (ExpressionTree.method receiver name arguments).symbols
      (ExpressionTree.method receiver name arguments).node follow := by
  refine (opens_receiver opens enough roomy binds).extend (List.cons_ne_nil _ _) ?_
    fun read rest told _ => avoidsHead_dot told rest
  intro left read rest holds told _
  obtain ⟨mark, _, rfl, tellsMark, saysName⟩ := told.of_cons
  obtain ⟨token, _, rfl, tells, saysGiven⟩ := saysName.of_cons
  obtain ⟨opening, body, closing, rfl, kind, given⟩ := reads_argumentTrees reads saysGiven
  rw [ExpressionTree.node, ← holds]
  exact reads_method name tellsMark.kind tells kind (given rest)

/-- A member is opened by its receiver. No parenthesis may follow: that would be a method call. -/
theorem opens_member {receiver : ExpressionTree} (opens : receiver.IsOpened) (name : Name)
    (enough : guardedInside receiver.power postfixPower receiver.inside ≤ levels)
    (roomy : guardedInside receiver.power postfixPower receiver.inside ≤ room)
    (binds : least ≤ postfixPower) :
    Opens levels room least (ExpressionTree.member receiver name).symbols
      (ExpressionTree.member receiver name).node (AvoidsHead [.leftParen]) := by
  refine (opens_receiver opens enough roomy binds).extend (List.cons_ne_nil _ _) ?_
    fun read rest told _ => avoidsHead_dot told rest
  intro left read rest holds told avoids
  obtain ⟨mark, _, rfl, tellsMark, saysName⟩ := told.of_cons
  obtain ⟨token, rfl, tells⟩ := saysName.of_singleton
  rw [ExpressionTree.node, ← holds]
  exact reads_member name tellsMark.kind tells avoids

/-- A unary operation is one operand, its own operand included. -/
theorem opens_unary (operator : UnaryOperator) {operand : ExpressionTree}
    (opens : operand.IsOpened)
    (enough : guardedInside operand.power unaryPower operand.inside + 1 ≤ levels)
    (roomy : guardedInside operand.power unaryPower operand.inside + 1 ≤ room) :
    Opens levels room least (ExpressionTree.unary operator operand).symbols
      (ExpressionTree.unary operator operand).node (Follows unaryPower) := by
  refine opens_operand fun read rest told follows => ?_
  obtain ⟨token, body, rfl, tells, saysOperand⟩ := told.of_cons
  have ends : EndsAt unaryPower rest := (follows.ends (by decide)).unary
  exact reads_unary operator tells (reads_rightOperand opens enough roomy saysOperand ends)

/-- An operator is not taken for a part of its left operand, which binds at least as tightly. -/
theorem follows_operator (operator : InfixOperator) {power : Nat}
    (tight : operator.power.left ≤ power) {token : Token}
    (kind : token.kind = operator.kind) (rest : List Token) : Follows power (token :: rest) := by
  have noPostfix : token.kind ∉ [TokenKind.leftParen, .doubleColon, .dot] := by
    intro member
    have known := operator.known
    rw [← kind] at known
    simp only [List.mem_cons, List.not_mem_nil, or_false] at member
    rcases member with same | same | same <;> · rw [same] at known; cases known
  have ends : EndsAt (power + 1) (token :: rest) := by
    refine ⟨(avoidsHead_cons _ _ _).mpr noPostfix, fun first head bound known => ?_⟩
    obtain rfl : token = first := Option.some.inj head
    rw [kind, operator.known] at known
    obtain rfl := Option.some.inj known
    exact Nat.lt_succ_of_le tight
  exact ⟨ends.noPostfix.mono (by simp), fun _ => ends⟩

/-- A binary operation is opened by its left operand: its right operand ends where it does. -/
theorem opens_binary (operator : InfixOperator) {left right : ExpressionTree}
    (opensLeft : left.IsOpened) (opensRight : right.IsOpened)
    (enough : (ExpressionTree.binary operator left right).inside ≤ levels)
    (roomy : (ExpressionTree.binary operator left right).inside ≤ room)
    (binds : least ≤ operator.power.left) :
    Opens levels room least (ExpressionTree.binary operator left right).symbols
      (ExpressionTree.binary operator left right).node (Follows operator.power.left) := by
  rw [ExpressionTree.inside] at enough roomy
  have left' := opens_guarded least operator.power.left opensLeft
    (Nat.le_trans (Nat.le_max_left _ _) enough) (Nat.le_trans (Nat.le_max_left _ _) roomy) binds
  refine left'.extend (List.cons_ne_nil _ _) ?_ fun read rest told _ tight => ?_
  · intro leftNode read rest holds told follows
    obtain ⟨token, body, rfl, tells, saysRight⟩ := told.of_cons
    have ends : EndsAt operator.power.right rest := by
      -- what follows binds no tighter than the operator, so the right operand ends before it
      rw [operator.right_eq]
      exact follows.ends (Nat.lt_of_le_of_lt (infixPower?_facts operator.known).2.2.2 (by decide))
    have right' := reads_rightOperand opensRight (Nat.le_trans (Nat.le_max_right _ _) enough)
      (Nat.le_trans (Nat.le_max_right _ _) roomy) saysRight ends
    have noFeed : AvoidsHead [.newline] (body ++ rest) :=
      ((startsIn_guarded saysRight).append rest).avoidsHead (by decide)
    rw [ExpressionTree.node, ← holds]
    exact reads_operation operator tells binds noFeed right'
  · obtain ⟨token, body, rfl, tells, _⟩ := told.of_cons
    exact follows_operator operator tight tells.kind (body ++ rest)

/-- An array is an operand. -/
theorem opens_array {elements : List ExpressionTree}
    (reads : ∀ tree ∈ elements,
      (upTo levels 0).ReadsSymbols room tree.symbols behindExpression (·.bare = tree.node))
    (follow : List Token → Prop) :
    Opens levels room least (ExpressionTree.array elements).symbols
      (ExpressionTree.array elements).node follow := by
  refine opens_operand fun read rest told _ => ?_
  obtain ⟨opening, body, closing, rfl, tellsOpening, saysElements, tellsClosing⟩ :=
    told.of_enclosed
  exact reads_array tellsOpening.kind
    (reads_expressions (.inr rfl) reads saysElements tellsClosing.kind rest)

/-- An object literal is an operand. -/
theorem opens_object {properties : List EntryTree}
    (reads : ∀ tree ∈ properties, (entry (upTo levels)).ReadsSymbols room tree.symbols
      [.comma, .rightBrace] (·.bare = tree.node))
    (follow : List Token → Prop) :
    Opens levels room least (ExpressionTree.object properties).symbols
      (ExpressionTree.object properties).node follow := by
  refine opens_operand fun read rest told _ => ?_
  obtain ⟨opening, body, closing, rfl, tellsOpening, saysEntries, tellsClosing⟩ :=
    told.of_enclosed
  rw [entrySymbols_eq] at saysEntries
  rw [ExpressionTree.node, entryNodes_eq]
  exact reads_objectEntries reads tellsOpening.kind tellsClosing.kind saysEntries rest

end Forms

mutual

/-- The symbols of an expression open it. -/
theorem ExpressionTree.opens : ∀ tree : ExpressionTree, tree.IsOpened
  | .number numeral => fun _ _ _ _ _ _ => opens_leaf (.number numeral) (by simp [Symbol.kind]) _
  | .string content => fun _ _ _ _ _ _ => opens_leaf (.string content) (by simp [Symbol.kind]) _
  | .boolean value => fun _ _ _ _ _ _ => by
    refine opens_leaf (booleanSymbol value) ?_ _
    cases value <;> simp [booleanSymbol, Symbol.kind]
  | .name path => fun levels room least _ _ _ read more rest good told _ rounds =>
    path.opens levels room least read more rest good told trivial rounds
  | .call callee arguments => fun levels room _ enough roomy _ =>
    opens_call callee (reads_expressionTrees arguments levels room enough roomy) _
  | .method receiver name arguments => fun levels room _ enough roomy binds => by
    rw [ExpressionTree.inside] at enough roomy
    have reads := reads_expressionTrees arguments levels room
      (Nat.le_trans (Nat.le_max_right _ _) enough) (Nat.le_trans (Nat.le_max_right _ _) roomy)
    exact opens_method receiver.opens name reads (Nat.le_trans (Nat.le_max_left _ _) enough)
      (Nat.le_trans (Nat.le_max_left _ _) roomy) binds _
  | .member receiver name => fun levels room least enough roomy binds =>
    fun read more rest good told follows rounds =>
      opens_member receiver.opens name enough roomy binds read more rest good told follows.noCall
        rounds
  | .unary operator operand => fun _ _ _ enough roomy _ =>
    opens_unary operator operand.opens enough roomy
  | .binary operator left right => fun _ _ _ enough roomy binds =>
    opens_binary operator left.opens right.opens enough roomy binds
  | .array elements => fun levels room _ enough roomy _ =>
    opens_array (reads_expressionTrees elements levels room enough roomy) _
  | .object properties => fun levels room _ enough roomy _ =>
    opens_object (reads_entryTrees properties levels room enough roomy) _

/-- The rule of nested expressions reads each of some expressions. -/
theorem reads_expressionTrees : ∀ (trees : List ExpressionTree) (levels room : Nat),
    expressionsNest trees ≤ levels → expressionsNest trees ≤ room → ∀ tree ∈ trees,
    (upTo levels 0).ReadsSymbols room tree.symbols behindExpression (·.bare = tree.node)
  | [], _, _, _, _, _, member => absurd member List.not_mem_nil
  | next :: others, levels, room, enough, roomy, tree, member => by
    rw [expressionsNest] at enough roomy
    rcases List.mem_cons.mp member with same | further
    · obtain ⟨levels, rfl⟩ : ∃ inner, levels = inner + 1 := ⟨levels - 1, by omega⟩
      obtain ⟨room, rfl⟩ : ∃ inner, room = inner + 1 := ⟨room - 1, by omega⟩
      rw [same]
      have inner := next.opens levels room 0 (by omega) (by omega) (Nat.zero_le _)
      intro read rest told starts
      have ends := endsAt_behindExpression starts
      exact inner.reads told (ends.follows (Nat.zero_le _)) ends
    · exact reads_expressionTrees others levels room (by omega) (by omega) tree further

/-- The rule of properties reads each of some properties. -/
theorem reads_entryTrees : ∀ (trees : List EntryTree) (levels room : Nat),
    entriesNest trees ≤ levels → entriesNest trees ≤ room → ∀ tree ∈ trees,
    (entry (upTo levels)).ReadsSymbols room tree.symbols [.comma, .rightBrace]
      (·.bare = tree.node)
  | [], _, _, _, _, _, member => absurd member List.not_mem_nil
  | .of key value :: others, levels, room, enough, roomy, tree, member => by
    rw [entriesNest, EntryTree.nest] at enough roomy
    rcases List.mem_cons.mp member with same | further
    · obtain ⟨levels, rfl⟩ : ∃ inner, levels = inner + 1 := ⟨levels - 1, by omega⟩
      obtain ⟨room, rfl⟩ : ∃ inner, room = inner + 1 := ⟨room - 1, by omega⟩
      rw [same]
      have inner := value.opens levels room 0 (by omega) (by omega) (Nat.zero_le _)
      refine reads_entry key value fun read rest told starts => ?_
      have ends := endsAt_behindExpression starts
      exact inner.reads told (ends.follows (Nat.zero_le _)) ends
    · exact reads_entryTrees others levels room (by omega) (by omega) tree further

end

/-- The rule of expressions reads every expression that there is room for. -/
theorem ExpressionTree.reads (tree : ExpressionTree) {room : Nat} (roomy : tree.nest ≤ room) :
    Expression.rule.ReadsSymbols room tree.symbols behindExpression (·.bare = tree.node) := by
  intro read rest told starts nonempty before nesting left
  have ends := endsAt_behindExpression starts
  rw [Expression.rule, ensures_bind, ensures_room, nesting_facing]
  have deep : tree.inside + 1 ≤ nesting.room := Nat.le_trans roomy left
  obtain ⟨levels, enough⟩ : ∃ levels, nesting.room = levels + 1 := ⟨nesting.room - 1, by omega⟩
  rw [enough]
  have inner := tree.opens levels tree.inside 0 (by omega) (Nat.le_refl _) (Nat.zero_le _)
  exact inner.reads told (ends.follows (Nat.zero_le _)) ends nonempty before nesting deep

end DocGrammar
