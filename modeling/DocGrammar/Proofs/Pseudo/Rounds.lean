import DocGrammar.Proofs.Pseudo.Syntax

/-! # The parts of an expression

What the rules of pseudo code read of an expression one step at a time: an operand, or what may
follow one. The rule of the operands inside is a variable, so that nothing here recurses.

* **`Expression.EndsAt`** — where an expression of a given power ends.
* **`Expression.reads_call`**, **`Expression.reads_operation`**, … — what each round reads. -/

namespace DocGrammar

open Rule RuleState

namespace Expression

variable {inner : Nat → Rule Node} {room least : Nat} {rest read : List Token} {left node : Node}

/-! ## Where an expression ends -/

/-- Whether nothing that stands before some tokens goes on with them, as far as postfix forms and
operators of at least a given power are concerned. -/
structure EndsAt (least : Nat) (rest : List Token) : Prop where
  /-- No postfix form follows. -/
  noPostfix : AvoidsHead [.leftParen, .doubleColon, .dot] rest
  /-- No operator of that power follows. -/
  noOperator : ∀ token ∈ rest.head?, ∀ power, infixPower? token.kind = some power →
    power.left < least

theorem EndsAt.mono {less : Nat} (ends : EndsAt less rest) (below : less ≤ least) :
    EndsAt least rest :=
  ⟨ends.noPostfix, fun token member power known =>
    Nat.lt_of_lt_of_le (ends.noOperator token member power known) below⟩

/-- No infix operator binds as tightly as a unary one. -/
theorem EndsAt.unary (ends : EndsAt least rest) : EndsAt unaryPower rest := by
  refine ⟨ends.noPostfix, fun token member power known => ?_⟩
  have bound := (infixPower?_facts known).2.2.2
  exact Nat.lt_of_le_of_lt bound (by decide)

/-- Where no operator follows, every expression ends. -/
theorem endsAt_of_startsIn {kinds : List TokenKind} (starts : StartsIn kinds rest)
    (postfixes : ∀ kind ∈ kinds, kind ∉ [TokenKind.leftParen, .doubleColon, .dot])
    (operators : ∀ kind ∈ kinds, infixPower? kind = none) : EndsAt least rest := by
  refine ⟨starts.avoidsHead postfixes, fun token head power known => ?_⟩
  obtain ⟨first, others, rfl, member⟩ := starts
  obtain rfl : first = token := Option.some.inj head
  rw [operators _ member] at known
  cases known

/-- Where an expression ends, the last round hands it over. -/
theorem reads_tail_done (ends : EndsAt least rest) (left : Node) :
    (tail inner least left).Reads room [] rest (Round.IsDone (· = left)) := by
  intro nonempty before nesting _
  obtain ⟨next, others, rfl⟩ := List.exists_cons_of_ne_nil nonempty
  have dot : next.kind ≠ .dot := ends.noPostfix.kind_ne (by simp)
  have colon : next.kind ≠ .doubleColon := ends.noPostfix.kind_ne (by simp)
  have paren : next.kind ≠ .leftParen := ends.noPostfix.kind_ne (by simp)
  simp [tail, dot, colon, paren]
  cases known : infixPower? next.kind with
  | none => exact ⟨rfl, rfl⟩
  | some power =>
    have below := ends.noOperator next rfl power known
    simp [below, Round.IsDone]

/-! ## Nodes without spans -/

theorem bare_extend (kind : NodeKind) (node part : Node) :
    (extend kind node part).bare = extendPlain kind node.bare part.bare := by
  unfold extend extendPlain
  rw [Node.kind_bare, Node.children_bare]
  by_cases grows : node.kind = kind
  · rw [if_pos grows, if_pos grows, Node.bare_branch, List.map_append]
    rfl
  · rw [if_neg grows, if_neg grows, Node.bare_branch]
    rfl

theorem isName_bare (node : Node) : isName node.bare = isName node := by
  unfold isName
  rw [Node.kind_bare]

theorem isSystemVerb_bare (node : Node) : isSystemVerb node.bare = isSystemVerb node := by
  unfold isSystemVerb
  rw [Node.kind_bare, Node.text_bare]

theorem bare_infixNode (operator : InfixOperator) {token : Token}
    (tells : token.Tells operator.symbol) (left right : Node) :
    (infixNode token left right).bare = operationNode operator.kind left.bare right.bare := by
  have kind : token.kind = operator.kind := tells.kind
  have value : token.value = String.ofList (markChars operator.kind) := tells.value
  unfold infixNode operationNode
  rw [kind, value]
  generalize operator.kind = known
  cases known <;> rfl

/-! ## Operands -/

/-- A symbol that is an operand by itself. -/
theorem reads_leaf {kind : TokenKind} {nodeKind : NodeKind} {token : Token}
    (same : token.kind = kind)
    (leaf : (kind, nodeKind) ∈ [(TokenKind.numberLit, NodeKind.number),
      (.stringLit, .stringLiteral), (.booleanLit, .boolean), (.identifier, .identifier)]) :
    (operand inner).Reads room [token] rest (·.bare = .plainLeaf nodeKind token.value) := by
  intro nonempty before nesting _
  simp only [List.mem_cons, Prod.mk.injEq, List.not_mem_nil, or_false] at leaf
  rcases leaf with ⟨rfl, rfl⟩ | ⟨rfl, rfl⟩ | ⟨rfl, rfl⟩ | ⟨rfl, rfl⟩ <;>
    simp [operand, Rule.leaf, same, nonempty]

/-- An expression between parentheses. -/
theorem reads_parenthesized {opening closing : Token} (opens : opening.kind = .leftParen)
    (closes : closing.kind = .rightParen)
    (reads : (inner 0).Reads room read (closing :: rest) (·.bare = node)) :
    (operand inner).Reads room (opening :: (read ++ [closing])) rest (·.bare = node) := by
  intro nonempty before nesting enough
  simp only [operand, List.cons_append, List.append_assoc]
  simp [opens]
  refine reads.ensures (List.cons_ne_nil _ _) enough fun value holds => ?_
  simp [closes, nonempty, holds]

/-- What is done at a unary operator. -/
def unaryRest (inner : Nat → Rule Node) (token : Token) : Rule Node := do
  let _ ← Rule.advance
  let value ← inner unaryPower
  return (Node.spanning .unaryExpression [value] (value.spanFrom token.span)).withText token.value

/-- A unary operator and its operand. -/
theorem reads_unary (operator : UnaryOperator) {token : Token}
    (tells : token.Tells (.mark operator.kind operator.isMark : Symbol .pseudo))
    (reads : (inner unaryPower).Reads room read rest (·.bare = node)) :
    (operand inner).Reads room (token :: read) rest
      (·.bare = (Node.plain .unaryExpression [node]).withText
        (String.ofList (markChars operator.kind))) := by
  intro nonempty before nesting enough
  have value : token.value = String.ofList (markChars operator.kind) := tells.value
  -- both operators are read by the same rule, once the kind of the token is known
  have begun : (operand inner).Ensures (.facing before (token :: (read ++ rest)) nesting) =
      (unaryRest inner token).Ensures (.facing before (token :: (read ++ rest)) nesting) := by
    funext post fails
    cases operator with
    | not =>
      have kind : token.kind = .bang := tells.kind
      simp [operand, kind, unaryRest]
    | minus =>
      have kind : token.kind = .minus := tells.kind
      simp [operand, kind, unaryRest]
  rw [List.cons_append, begun]
  simp [unaryRest, nonempty]
  refine reads.ensures nonempty enough fun operand holds => ?_
  simp [holds, value]

/-- An array literal. -/
theorem reads_array {opening closing : Token} {nodes : List Node}
    (opens : opening.kind = .leftBracket)
    (reads : (delimited .rightBracket comma (inner 0)).Reads room read (closing :: rest)
      (fun values => values.map Node.bare = nodes)) :
    (operand inner).Reads room (opening :: (read ++ [closing])) rest
      (·.bare = .plain .arrayLiteral nodes) := by
  intro nonempty before nesting enough
  simp only [operand, array, List.cons_append, List.append_assoc]
  simp [opens]
  refine reads.ensures (List.cons_ne_nil _ _) enough fun values holds => ?_
  simp [nonempty, holds]

/-- The rule of the separators in an object literal. -/
def entrySeparator : Rule Unit := do Rule.comma; Rule.skipNewlines

/-- The rule of the properties in an object literal. -/
def entry (inner : Nat → Rule Node) : Rule Node := do
  let found ← property inner
  Rule.skipNewlines
  return found

/-- An object literal. -/
theorem reads_object {opening closing : Token} {nodes : List Node}
    (opens : opening.kind = .leftBrace) (noFeed : AvoidsHead [.newline] (read ++ closing :: rest))
    (reads : (delimited .rightBrace entrySeparator (entry inner)).Reads room read (closing :: rest)
      (fun values => values.map Node.bare = nodes)) :
    (operand inner).Reads room (opening :: (read ++ [closing])) rest
      (·.bare = .plain .objectLiteral nodes) := by
  intro nonempty before nesting enough
  have reading : Rule.Ensures (object inner) (.facing before (opening :: (read ++ closing :: rest))
      nesting) (fun value final => value.bare = .plain .objectLiteral nodes ∧
        final = .facing (closing :: (read.reverse ++ opening :: before)) rest nesting)
      (fun _ _ => False) := by
    -- the separator of an entry skips line ends, of which there are none in front
    have skipped : skipNewlines.Reads room [] (read ++ closing :: rest) fun _ => True :=
      reads_skip_none noFeed
    simp only [object, ensures_bind, ensures_advance]
    rw [current_facing, advanced_facing (by simp)]
    refine skipped.ensures (by simp) enough fun _ _ => ?_
    refine reads.ensures (List.cons_ne_nil _ _) enough fun values holds => ?_
    simp [nonempty, holds]
  simp only [operand, List.cons_append, List.append_assoc]
  simp [opens]
  simpa using reading

/-! ## Rounds behind an operand -/

/-- A name in a scope. -/
theorem reads_scope (name : Name) {mark token : Token} (scopes : mark.kind = .doubleColon)
    (tells : token.Tells (Symbol.name name)) (isName : isName left = true) (rest : List Token) :
    (tail inner least left).Reads room [mark, token] rest
      (Round.IsAgain (·.bare = extendPlain .scopedIdentifier left.bare (nameNode name))) := by
  intro nonempty before nesting enough
  simp only [tail, List.cons_append, List.nil_append]
  simp [scopes, isName, scope]
  refine (reads_identifier name tells rest).ensures nonempty enough fun value holds => ?_
  refine ⟨?_, rfl⟩
  show (extend .scopedIdentifier left value).bare = _
  rw [bare_extend, holds]
  rfl

/-- The access to a property. -/
theorem reads_member (name : Name) {mark token : Token} (accesses : mark.kind = .dot)
    (tells : token.Tells (Symbol.name name)) (noCall : AvoidsHead [.leftParen] rest) :
    (tail inner least left).Reads room [mark, token] rest
      (Round.IsAgain (·.bare = extendPlain .propertyAccess left.bare (nameNode name))) := by
  intro nonempty before nesting enough
  obtain ⟨next, others, rfl⟩ := List.exists_cons_of_ne_nil nonempty
  have paren : next.kind ≠ .leftParen := noCall.kind_ne (by simp)
  simp only [tail, List.cons_append, List.nil_append]
  simp [accesses, member]
  refine (reads_identifier name tells _).ensures nonempty enough fun value holds => ?_
  simp [paren, Round.IsAgain, bare_extend, holds]
  rfl

/-- The arguments of a call. -/
theorem reads_arguments {opening closing : Token} {nodes : List Node}
    (reads : (delimited .rightParen comma (inner 0)).Reads room read (closing :: rest)
      (fun values => values.map Node.bare = nodes)) :
    (arguments inner).Reads room (opening :: (read ++ [closing])) rest
      (fun values => values.map Node.bare = argumentNodes nodes) := by
  intro nonempty before nesting enough
  simp only [arguments, List.cons_append, List.append_assoc]
  simp
  refine reads.ensures (List.cons_ne_nil _ _) enough fun values holds => ?_
  simp [nonempty]
  rw [← holds]
  unfold argumentNodes
  cases values with
  | nil => rfl
  | cons first others => simp

/-- The call of a method. -/
theorem reads_method (name : Name) {mark token opening closing : Token} {nodes : List Node}
    (accesses : mark.kind = .dot) (tells : token.Tells (Symbol.name name))
    (opens : opening.kind = .leftParen)
    (reads : (arguments inner).Reads room (opening :: (read ++ [closing])) rest
      (fun values => values.map Node.bare = argumentNodes nodes)) :
    (tail inner least left).Reads room (mark :: token :: opening :: (read ++ [closing])) rest
      (Round.IsAgain
        (·.bare = .plain .methodCall (left.bare :: nameNode name :: argumentNodes nodes))) := by
  intro nonempty before nesting enough
  simp only [tail, List.cons_append]
  simp [accesses, member]
  refine (reads_identifier name tells _).ensures (List.cons_ne_nil _ _) enough fun value holds => ?_
  simp [opens]
  have shape : opening :: (read ++ closing :: rest) = opening :: (read ++ [closing]) ++ rest := by
    simp
  rw [shape]
  refine reads.ensures nonempty enough fun values given => ?_
  simp [Round.IsAgain, holds, given]
  rfl

/-- The call of a name. -/
theorem reads_call {opening closing : Token} {nodes : List Node} (opens : opening.kind = .leftParen)
    (isName : isName left = true)
    (reads : (arguments inner).Reads room (opening :: (read ++ [closing])) rest
      (fun values => values.map Node.bare = argumentNodes nodes)) :
    (tail inner least left).Reads room (opening :: (read ++ [closing])) rest
      (Round.IsAgain (·.bare = .plain
        (if isSystemVerb left.bare then .systemFunctionCall else .functionCall)
          (left.bare :: argumentNodes nodes))) := by
  intro nonempty before nesting enough
  simp only [tail, List.cons_append]
  simp [opens, isName, call]
  have shape : opening :: (read ++ closing :: rest) = opening :: (read ++ [closing]) ++ rest := by
    simp
  rw [shape]
  refine reads.ensures nonempty enough fun values given => ?_
  simp [Round.IsAgain, given, isSystemVerb_bare]

/-- An operator of at least the power demanded, and its right operand. -/
theorem reads_operation (operator : InfixOperator) {token : Token}
    (tells : token.Tells operator.symbol) (binds : least ≤ operator.power.left)
    (noFeed : AvoidsHead [.newline] (read ++ rest))
    (reads : (inner operator.power.right).Reads room read rest (·.bare = node)) :
    (tail inner least left).Reads room (token :: read) rest
      (Round.IsAgain (·.bare = operationNode operator.kind left.bare node)) := by
  intro nonempty before nesting enough
  have kind : token.kind = operator.kind := tells.kind
  have known : infixPower? token.kind = some operator.power := by rw [kind]; exact operator.known
  -- a token with a power is none of those that extend an operand
  have dot : token.kind ≠ .dot := by
    intro same
    rw [same] at known
    cases known
  have colon : token.kind ≠ .doubleColon := by
    intro same
    rw [same] at known
    cases known
  have paren : token.kind ≠ .leftParen := by
    intro same
    rw [same] at known
    cases known
  have skipped : skipNewlines.Reads room [] (read ++ rest) fun _ => True := reads_skip_none noFeed
  simp only [tail, List.cons_append]
  simp [dot, colon, paren, known, Nat.not_lt.mpr binds, operation, nonempty]
  refine skipped.ensures (by simp [nonempty]) enough fun _ _ => ?_
  refine reads.ensures nonempty enough fun right holds => ?_
  refine ⟨?_, rfl⟩
  show (infixNode token left right).bare = _
  rw [bare_infixNode operator tells, holds]

end Expression

end DocGrammar
