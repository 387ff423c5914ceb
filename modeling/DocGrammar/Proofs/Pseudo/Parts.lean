import DocGrammar.Proofs.Pseudo.Program

/-! # The parts of a statement

What the rules of pseudo code read of a statement, given what the rules of the blocks inside read.

* **`FollowsStatement`** — what may stand behind a statement.
* **`Statement.reads_function`**, **`Statement.reads_conditional`**, … — what each rule reads. -/

namespace DocGrammar

open Rule RuleState

/-! ## What stands behind a statement -/

/-- The kinds of tokens that may stand behind a statement. -/
def statementEnds : List TokenKind := [.newline, .semicolon, .rightBrace, .endOfInput]

/-- Whether some tokens have none of the other branch of a conditional behind their line ends. -/
def NoElse (rest : List Token) : Prop :=
  ∃ feeds next others, rest = feeds ++ next :: others ∧
    (∀ token ∈ feeds, token.kind = .newline) ∧ next.kind ≠ .newline ∧ next.kind ≠ .elseWord

/-- What is asked of the tokens behind a statement. -/
structure FollowsStatement (rest : List Token) : Prop where
  /-- The statement ends. -/
  starts : StartsIn statementEnds rest
  /-- The statement does not go on with another branch. -/
  noElse : NoElse rest

/-- A semicolon, or a token that is neither a line end nor the start of another branch, has no
other branch behind it. -/
theorem noElse_cons {token : Token} (feed : token.kind ≠ .newline) (other : token.kind ≠ .elseWord)
    (others : List Token) : NoElse (token :: others) :=
  ⟨[], token, others, rfl, fun _ member => absurd member List.not_mem_nil, feed, other⟩

/-- Separators before tokens without another branch have none behind them. -/
theorem NoElse.append {rest : List Token} (noElse : NoElse rest) {marks : List Token}
    (separators : ∀ token ∈ marks, token.kind ∈ Statement.separators) : NoElse (marks ++ rest) := by
  induction marks with
  | nil => exact noElse
  | cons mark marks ih =>
    have kinds := separators mark List.mem_cons_self
    simp only [Statement.separators, List.mem_cons, List.not_mem_nil, or_false] at kinds
    rcases kinds with feed | semicolon
    · obtain ⟨feeds, next, others, split, run, stop, other⟩ :=
        ih fun token member => separators token (List.mem_cons_of_mem _ member)
      refine ⟨mark :: feeds, next, others, by rw [List.cons_append, split]; rfl, ?_, stop, other⟩
      intro token member
      rcases List.mem_cons.mp member with rfl | further
      · exact feed
      · exact run token further
    · exact noElse_cons (by rw [semicolon]; decide) (by rw [semicolon]; decide) _

namespace Statement

variable {room : Nat} {rest read : List Token} {node : Node}

/-! ## Simple statements -/

theorem reads_binding (name : Name) {start token sign : Token}
    (tells : token.Tells (Symbol.name name)) (assigns : sign.kind = .assign)
    (reads : Expression.rule.Reads room read rest (·.bare = node)) :
    binding.Reads room (start :: token :: sign :: read) rest
      (·.bare = .plain .letBinding [nameNode name, node]) := by
  intro nonempty before nesting enough
  simp only [binding, List.cons_append]
  simp
  refine (reads_identifier name tells _).ensures (List.cons_ne_nil _ _) enough
    fun value holds => ?_
  simp [assigns, nonempty]
  refine reads.ensures nonempty enough fun bound boundHolds => ?_
  simp [holds, boundHolds]
  rfl

theorem reads_assignment (name : Name) {token sign : Token}
    (tells : token.Tells (Symbol.name name))
    (reads : Expression.rule.Reads room read rest (·.bare = node)) :
    assignment.Reads room (token :: sign :: read) rest
      (·.bare = .plain .assignment [nameNode name, node]) := by
  intro nonempty before nesting enough
  have value : token.value = name.text := tells.value
  simp only [assignment, Rule.leaf, List.cons_append]
  simp [nonempty]
  refine reads.ensures nonempty enough fun bound boundHolds => ?_
  simp [boundHolds, value]
  rfl

/-- A return without a value. -/
theorem reads_returning_none {start : Token} (starts : StartsIn statementEnds rest) :
    returning.Reads room [start] rest (·.bare = .plain .returnStatement []) := by
  intro nonempty before nesting _
  obtain ⟨next, others, rfl, member⟩ := starts
  have ends : next.kind ∈ separators ++ [.rightBrace, .endOfInput] := member
  simp only [returning, List.cons_append, List.nil_append]
  simp
  intro separates brace finish
  exact absurd ends (by simp [separates, brace, finish])

/-- A return with a value. -/
theorem reads_returning {start : Token} (starts : StartsIn Expression.operandKinds read)
    (reads : Expression.rule.Reads room read rest (·.bare = node)) :
    returning.Reads room (start :: read) rest (·.bare = .plain .returnStatement [node]) := by
  intro nonempty before nesting enough
  obtain ⟨next, others, rfl, member⟩ := starts
  have goesOn : ¬(next.kind ∈ separators ∨ next.kind = .rightBrace ∨ next.kind = .endOfInput) := by
    have apart : ∀ kind ∈ Expression.operandKinds,
        ¬(kind ∈ separators ∨ kind = .rightBrace ∨ kind = .endOfInput) := by decide
    exact apart _ member
  have reading := reads nonempty (start :: before) nesting enough
  simp only [returning, List.cons_append] at reading ⊢
  simp
  rw [if_neg goesOn]
  refine reading.mono ?_ fun _ _ fault => fault
  rintro value final ⟨holds, rfl⟩
  simp [holds]

theorem bare_expression (value : Node) :
    (if value.kind = .systemFunctionCall then value
      else Node.branch .expressionStatement [value]).bare = expressionNode value.bare := by
  unfold expressionNode
  rw [Node.kind_bare]
  split
  · rfl
  · exact Node.bare_branch _ _

theorem reads_expression (reads : Expression.rule.Reads room read rest (·.bare = node)) :
    expression.Reads room read rest (·.bare = expressionNode node) := by
  intro nonempty before nesting enough
  simp only [expression, ensures_bind]
  refine reads.ensures nonempty enough fun value holds => ?_
  rw [ensures_pure]
  exact ⟨by rw [bare_expression, holds], rfl⟩

/-! ## Functions -/

/-- A parameter, given what the rule of types reads of its type. -/
theorem reads_parameter (name : Name) {symbols : List (Symbol .pseudo)}
    (type : TypeExpr.rule.ReadsSymbols room symbols behindType (·.bare = node)) :
    parameter.ReadsSymbols room (.name name :: .colon :: symbols) [.comma, .rightParen]
      (·.bare = .plain .parameter [nameNode name, node]) := by
  intro read rest told starts nonempty before nesting enough
  obtain ⟨token, _, rfl, tells, saysColon⟩ := told.of_cons
  obtain ⟨colon, body, rfl, tellsColon, saysType⟩ := saysColon.of_cons
  have kind : colon.kind = .colon := tellsColon.kind
  have inner := type body rest saysType (starts.mono (by decide))
  simp only [parameter, List.cons_append, ensures_bind]
  refine (reads_identifier name tells _).ensures (List.cons_ne_nil _ _) enough
    fun value holds => ?_
  simp [kind, nonempty]
  refine inner.ensures nonempty enough fun value typeHolds => ?_
  simp [holds, typeHolds]
  rfl

/-- The parameters of a function, with the closing parenthesis. -/
theorem reads_parameters {ι : Type} {spell : ι → List (Symbol .pseudo)} {spelled : ι → Node}
    (entries : List ι)
    (reads : ∀ entry ∈ entries,
      parameter.ReadsSymbols room (spell entry) [.comma, .rightParen] (·.bare = spelled entry))
    (starts : ∀ entry ∈ entries, ∃ first others,
      spell entry = first :: others ∧ first.kind ≠ .rightParen)
    (told : Says read (separated .comma (entries.map spell))) {closing : Token}
    (closes : closing.kind = .rightParen) (rest : List Token) :
    parameters.Reads room (read ++ [closing]) rest
      (fun values => values.map Node.bare = parameterNodes (entries.map spelled)) := by
  have list := reads_delimited entries reads (fun token rest kind _ => reads_comma kind rest)
    (by decide) starts told closes rest
  intro nonempty before nesting enough
  simp only [parameters, List.append_assoc, ensures_bind]
  refine list.ensures (List.cons_ne_nil _ _) enough fun values holds => ?_
  simp [nonempty]
  rw [← holds]
  unfold parameterNodes
  cases values with
  | nil => rfl
  | cons first others => simp

/-- The parameters of a function are no deeper than the deepest of them. -/
theorem reads_parameterTrees (trees : List ParameterTree) (roomy : parametersNest trees ≤ room)
    (told : Says read (separated .comma (trees.map ParameterTree.symbols))) {closing : Token}
    (closes : closing.kind = .rightParen) (rest : List Token) :
    parameters.Reads room (read ++ [closing]) rest
      (fun values => values.map Node.bare = parameterNodes (trees.map ParameterTree.node)) := by
  have deepest : ∀ tree ∈ trees, tree.type.nest ≤ parametersNest trees := by
    intro tree member
    clear told roomy
    induction trees with
    | nil => exact absurd member List.not_mem_nil
    | cons next others ih =>
      rcases List.mem_cons.mp member with rfl | further
      · exact Nat.le_max_left _ _
      · exact Nat.le_trans (ih further) (Nat.le_max_right _ _)
  exact reads_parameters trees
    (fun tree member => reads_parameter tree.name
      (tree.type.reads (Nat.le_trans (deepest tree member) roomy)))
    (fun tree _ => ⟨.name tree.name, _, rfl, by simp [Symbol.name, Symbol.kind]⟩) told closes rest

/-- Without an arrow there is no return type. -/
theorem reads_returnType_none (starts : StartsIn [.leftBrace] rest) :
    returnType.Reads room [] rest (fun values => values.map Node.bare = []) := by
  intro nonempty before nesting enough
  obtain ⟨next, others, rfl, member⟩ := starts
  have kind : next.kind = .leftBrace := List.mem_singleton.mp member
  simp [returnType, kind]

/-- The return type of a function, given what the rule of types reads of it. -/
theorem reads_returnType {arrow : Token} (kind : arrow.kind = .arrow)
    (type : TypeExpr.rule.Reads room read rest (·.bare = node)) :
    returnType.Reads room (arrow :: read) rest
      (fun values => values.map Node.bare = [node.withField "return_type"]) := by
  intro nonempty before nesting enough
  simp only [returnType, List.cons_append]
  simp [kind, nonempty]
  refine type.ensures nonempty enough fun value holds => ?_
  simp [holds]

theorem reads_result (result : Option (TypeTree .pseudo)) (roomy : resultNest result ≤ room)
    (told : Says read (resultSymbols result)) (starts : StartsIn [.leftBrace] rest) :
    returnType.Reads room read rest
      (fun values => values.map Node.bare = resultNodes result) := by
  cases result with
  | none =>
    cases told
    exact reads_returnType_none starts
  | some type =>
    obtain ⟨arrow, body, rfl, tells, saysType⟩ := told.of_cons
    exact reads_returnType tells.kind
      (type.reads roomy body rest saysType (starts.mono (by decide)))

/-- The definition of a function, given what the rules of its parts read. -/
theorem reads_function {block : Rule Node} (name : Name) (start : Token) {token opening : Token}
    {given result : List Token} {givenNodes resultNodes : List Node}
    (tells : token.Tells (Symbol.name name)) (opens : opening.kind = .leftParen)
    (readsGiven : parameters.Reads room given (result ++ (read ++ rest))
      (fun values => values.map Node.bare = givenNodes))
    (readsResult : returnType.Reads room result (read ++ rest)
      (fun values => values.map Node.bare = resultNodes))
    (reads : block.Reads room read rest (·.bare = node)) :
    (function block).Reads room (start :: token :: opening :: (given ++ (result ++ read))) rest
      (·.bare = .plain .functionDefinition ((nameNode name).withField "name" ::
        (givenNodes ++ resultNodes ++ [node.withField "body"]))) := by
  intro nonempty before nesting enough
  simp only [function, List.cons_append, List.append_assoc]
  simp
  refine (reads_identifier name tells _).ensures (List.cons_ne_nil _ _) enough
    fun value holds => ?_
  simp [opens, nonempty]
  refine readsGiven.ensures (by simp [nonempty]) enough fun values valuesHold => ?_
  refine readsResult.ensures (by simp [nonempty]) enough fun types typesHold => ?_
  refine reads.ensures nonempty enough fun bodyNode bodyHolds => ?_
  simp [holds, valuesHold, typesHold, bodyHolds]
  rfl

/-- The definition of a function from its trees, given what the rule of its block reads. -/
theorem reads_functionTree {block : Rule Node} (name : Name) (parameters : List ParameterTree)
    (result : Option (TypeTree .pseudo)) {head : List Token}
    (roomy : max (parametersNest parameters) (resultNest result) ≤ room)
    (told : Says head (headSymbols name parameters result))
    (starts : StartsIn [.leftBrace] read)
    (reads : block.Reads room read rest (·.bare = node)) :
    (function block).Reads room (head ++ read) rest
      (·.bare = .plain .functionDefinition ((nameNode name).withField "name" ::
        (parameterNodes (parameters.map ParameterTree.node) ++ resultNodes result ++
          [node.withField "body"]))) := by
  obtain ⟨start, _, rfl, tellsStart, saysName⟩ := told.of_cons
  obtain ⟨token, _, rfl, tells, saysGiven⟩ := saysName.of_cons
  obtain ⟨given, result', rfl, saysParens, saysResult⟩ := saysGiven.of_append
  obtain ⟨opening, body, closing, rfl, tellsOpening, saysParameters, tellsClosing⟩ :=
    saysParens.of_enclosed
  have given := reads_parameterTrees parameters (Nat.le_trans (Nat.le_max_left _ _) roomy)
    saysParameters tellsClosing.kind (result' ++ (read ++ rest))
  have type := reads_result result (Nat.le_trans (Nat.le_max_right _ _) roomy) saysResult
    (starts.append rest)
  have whole := reads_function name start tells tellsOpening.kind given type reads
  simpa only [List.cons_append, List.append_assoc] using whole

end Statement

end DocGrammar
