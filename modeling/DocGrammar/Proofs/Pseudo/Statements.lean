import DocGrammar.Proofs.Pseudo.Parts

/-! # Statements are read back

The rule of statements reads the symbols of every row of statements that there is room for and
builds their nodes. Line ends become tokens only where a line ends, so the claims are about the
symbols that become tokens behind a state where no bracket is open.

* **`BodyTree.loopReads`**, **`StatementTree.reads`** — rows of statements and statements.
* **`ProgramTree.reads`** — the rule of whole texts reads every text. -/

namespace DocGrammar

open Rule RuleState

namespace Statement

variable {room : Nat} {rest read : List Token} {node : Node}

/-! ## Blocks -/

theorem reads_braced {body : Rule (List Node)} {nodes : List Node} {opening closing : Token}
    (opens : opening.kind = .leftBrace)
    (reads : body.Reads room read (closing :: rest) (fun values => values.map Node.bare = nodes)) :
    (braced body).Reads (room + 1) (opening :: (read ++ [closing])) rest
      (·.bare = .plain .block nodes) := by
  have inner : (do
      let _ ← Rule.advance
      let statements ← body
      return (statements, ← Rule.advance) : Rule (List Node × Token)).Reads room
        (opening :: (read ++ [closing])) rest (fun value => value.1.map Node.bare = nodes) := by
    intro nonempty before nesting enough
    simp only [List.cons_append, List.append_assoc]
    simp
    refine reads.ensures (List.cons_ne_nil _ _) enough fun values holds => ?_
    simp [nonempty, holds]
  intro nonempty before nesting enough
  have nested := inner.nested nonempty before nesting enough
  simp only [braced, List.cons_append] at nested ⊢
  simp [opens] at nested ⊢
  refine nested.mono ?_ fun _ _ fault => fault
  rintro ⟨values, stop⟩ final ⟨holds, rfl⟩
  have holds' : values.map Node.bare = nodes := holds
  simp [holds']

/-! ## Conditionals -/

/-- Without another branch nothing is read. -/
theorem reads_alternative_none (block conditional : Rule Node) (noElse : NoElse rest) :
    (alternative block conditional).Reads room [] rest
      (fun values => values.map Node.bare = []) := by
  intro nonempty before nesting enough
  obtain ⟨feeds, next, others, rfl, run, stop, other⟩ := noElse
  have skipped : skipNewlines.Reads room feeds (next :: others) fun _ => True := by
    refine reads_skip (fun token member => ?_) ?_
    · rw [run token member]
      exact List.mem_singleton_self _
    · intro token head
      obtain rfl : next = token := Option.some.inj head
      exact fun same => stop (List.mem_singleton.mp same)
  simp only [alternative, List.nil_append, ensures_bind, ensures_get]
  refine skipped.ensures (List.cons_ne_nil _ _) enough fun _ _ => ?_
  simp [other]

/-- The other branch of a conditional, given what its rule reads. -/
theorem reads_alternative {block conditional branch : Rule Node} {word : Token}
    (other : word.kind = .elseWord)
    (chosen : ∀ token others, read = token :: others →
      if token.kind = .ifWord then branch = conditional else branch = block)
    (consumes : read ≠ []) (reads : branch.Reads room read rest (·.bare = node)) :
    (alternative block conditional).Reads room (word :: read) rest
      (fun values => values.map Node.bare = [node.withField "alternative"]) := by
  intro nonempty before nesting enough
  obtain ⟨token, others, rfl⟩ := List.exists_cons_of_ne_nil consumes
  have skipped : skipNewlines.Reads room [] (word :: (token :: others ++ rest)) fun _ => True :=
    reads_skip_none (by rw [← AvoidsHead, avoidsHead_cons, other]; decide)
  have reading := reads nonempty (word :: before) nesting enough
  simp only [alternative, List.cons_append, ensures_bind, ensures_get] at reading ⊢
  refine skipped.ensures (List.cons_ne_nil _ _) enough fun _ _ => ?_
  simp [other]
  have same := chosen token others rfl
  -- the token behind the word decides which of the two rules goes on
  by_cases conditional' : token.kind = .ifWord
  · rw [if_pos conditional'] at same ⊢
    rw [← same]
    refine reading.mono ?_ fun _ _ fault => fault
    rintro value final ⟨holds, rfl⟩
    simp [holds]
  · rw [if_neg conditional'] at same ⊢
    rw [← same]
    refine reading.mono ?_ fun _ _ fault => fault
    rintro value final ⟨holds, rfl⟩
    simp [holds]

/-- A conditional, given what the rules of its parts read. -/
theorem reads_conditional {block otherwise : Rule Node} {start : Token}
    {condition consequence others : List Token} {conditionNode consequenceNode : Node}
    {otherNodes : List Node}
    (reads : Expression.rule.Reads room condition (consequence ++ (others ++ rest))
      (·.bare = conditionNode))
    (block' : block.Reads room consequence (others ++ rest) (·.bare = consequenceNode))
    (alternative' : (alternative block otherwise).Reads room others rest
      (fun values => values.map Node.bare = otherNodes)) :
    (conditional block otherwise).Reads room
      (start :: (condition ++ (consequence ++ others))) rest
      (·.bare = .plain .ifStatement (conditionNode.withField "condition" ::
        consequenceNode.withField "consequence" :: otherNodes)) := by
  intro nonempty before nesting enough
  simp only [conditional, List.cons_append, List.append_assoc]
  simp [nonempty]
  refine reads.ensures (by simp [nonempty]) enough fun value holds => ?_
  refine block'.ensures (by simp [nonempty]) enough fun body bodyHolds => ?_
  refine alternative'.ensures nonempty enough fun values valuesHold => ?_
  simp [holds, bodyHolds, valuesHold]

/-! ## Rules of blocks and conditionals -/

/-- Whether the rules of blocks and conditionals read whatever those of any great enough number of
levels do. -/
structure Covers (block conditional : Rule Node) (room levels : Nat) : Prop where
  /-- The rule of blocks does. -/
  block : ∀ read rest (good : Node → Prop),
    (∀ deeper, levels ≤ deeper → (compound deeper .block).Reads room read rest good) →
      block.Reads room read rest good
  /-- The rule of conditionals does. -/
  conditional : ∀ read rest (good : Node → Prop),
    (∀ deeper, levels ≤ deeper → (compound deeper .conditional).Reads room read rest good) →
      conditional.Reads room read rest good

theorem covers_compound {room levels deeper : Nat} (enough : levels ≤ deeper) :
    Covers (compound deeper .block) (compound deeper .conditional) room levels :=
  ⟨fun _ _ _ reads => reads deeper enough, fun _ _ _ reads => reads deeper enough⟩

theorem reads_compoundRule {form : Form} {room : Nat} {good : Node → Prop}
    (reads : ∀ deeper, room ≤ deeper → (compound deeper form).Reads room read rest good) :
    (compoundRule form).Reads room read rest good := by
  intro nonempty before nesting enough
  rw [compoundRule, ensures_bind, ensures_room, nesting_facing]
  exact reads nesting.room enough nonempty before nesting enough

theorem covers_compoundRule (room : Nat) :
    Covers (compoundRule .block) (compoundRule .conditional) room room :=
  ⟨fun _ _ _ reads => reads_compoundRule reads, fun _ _ _ reads => reads_compoundRule reads⟩

/-! ## Separators -/

/-- The tokens of some marks are separators. -/
theorem kind_of_marks (state : CodeState) (marks : List Mark) {read : List Token}
    (told : Says read (state.emitted (markSymbols marks))) :
    ∀ token ∈ read, token.kind ∈ separators := by
  have symbols : ∀ symbol ∈ state.emitted (markSymbols marks), symbol.kind ∈ separators := by
    intro symbol member
    obtain ⟨mark, _, rfl⟩ := List.mem_map.mp (CodeState.mem_of_mem_emitted member)
    cases mark <;> decide
  revert symbols
  generalize state.emitted (markSymbols marks) = spoken at told
  induction told with
  | nil => exact fun _ _ member => absurd member List.not_mem_nil
  | cons head _ ih =>
    intro symbols token member
    rcases List.mem_cons.mp member with rfl | further
    · rw [head.kind]
      exact symbols _ List.mem_cons_self
    · exact ih (fun symbol inner => symbols symbol (List.mem_cons_of_mem _ inner)) token further

/-- Where the line may end, a separator has at least one token. -/
theorem ne_nil_of_separator {state : CodeState} (ends : state.endsLine = true)
    (separator : Separator) {read : List Token}
    (told : Says read (state.emitted separator.symbols)) : read ≠ [] := by
  rw [Separator.symbols, markSymbols, List.map_cons, CodeState.emitted_of_endsLine ends] at told
  obtain ⟨token, more, rfl, _, _⟩ := told.of_cons
  exact List.cons_ne_nil _ _

/-! ## The first word of a statement -/

variable {block conditional : Rule Node} {good : Node → Prop}

/-- Rules that do the same in front of the tokens read the same. -/
theorem reads_of_eq {rule other : Rule Node}
    (same : ∀ state : RuleState, state.cursor.rest = read ++ rest → rule state = other state)
    (reads : other.Reads room read rest good) : rule.Reads room read rest good := by
  intro nonempty before nesting enough
  have faced : (facing before (read ++ rest) nesting).cursor.rest = read ++ rest :=
    rest_facing (by simp [nonempty])
  unfold Ensures
  rw [same _ faced]
  exact reads nonempty before nesting enough

/-- Rules that do the same in front of one kind of token read the same from there. -/
theorem reads_of_kind {rule other : Rule Node} {kind : TokenKind} (starts : StartsIn [kind] read)
    (same : ∀ state : RuleState, state.cursor.current.kind = kind → rule state = other state)
    (reads : other.Reads room read rest good) : rule.Reads room read rest good := by
  refine reads_of_eq (fun state faces => same state ?_) reads
  have facing := starts.append rest
  rw [← faces] at facing
  exact facing.kind

/-- The first token decides which rule reads a statement. -/
theorem single_eq (state : RuleState) :
    single block conditional state =
      match state.cursor.current.kind with
      | .fnWord => function block state
      | .letWord => binding state
      | .ifWord => conditional state
      | .returnWord => returning state
      | .identifier =>
        if (state.cursor.peek 1).kind = .assign then assignment state else expression state
      | _ => expression state := by
  have begun : single block conditional state = (match state.cursor.current.kind with
      | .fnWord => function block
      | .letWord => binding
      | .ifWord => conditional
      | .returnWord => returning
      | .identifier => do
        if (← Rule.peek 1).kind = .assign then assignment else expression
      | _ => expression : Rule Node) state := rfl
  rw [begun]
  generalize state.cursor.current.kind = kind
  -- only behind a name the rule looks at one more token
  cases kind <;> first
    | rfl
    | (show (if (state.cursor.peek 1).kind = .assign then assignment else expression : Rule Node)
         state = if (state.cursor.peek 1).kind = .assign then assignment state else expression state
       split <;> rfl)

/-- A statement of another kind than a definition, a binding, a conditional or a return is an
expression, unless a sign of an assignment follows its first token. -/
theorem single_eq_expression {token : Token} {others : List Token}
    (kind : token.kind ∈ Expression.operandKinds)
    (noAssign : AvoidsHead [.assign] others) (nonempty : others ≠ []) (state : RuleState)
    (faces : state.cursor.rest = token :: others) :
    single block conditional state = expression state := by
  obtain ⟨⟨before, current, after⟩, nesting⟩ := state
  obtain ⟨rfl, rfl⟩ := List.cons.inj faces
  obtain ⟨next, more, rfl⟩ := List.exists_cons_of_ne_nil nonempty
  have other : next.kind ≠ .assign := noAssign.kind_ne (List.mem_singleton_self _)
  rw [single_eq]
  simp only [Expression.operandKinds, List.mem_cons, List.not_mem_nil, or_false] at kind
  rcases kind with same | same | same | same | same | same | same | same | same <;> rw [same]
  exact if_neg other

end Statement

open Statement

/-! ## How statements start -/

/-- The kinds of tokens that a statement starts with. -/
def statementKinds : List TokenKind :=
  [.fnWord, .letWord, .ifWord, .returnWord] ++ Expression.operandKinds

/-- A statement starts with a word of its own or like an expression. -/
theorem StatementTree.exists_symbols : ∀ tree : StatementTree,
    ∃ first others, tree.symbols = first :: others ∧ first.kind ∈ statementKinds
  | .function .. => ⟨_, _, rfl, by decide⟩
  | .binding .. => ⟨_, _, rfl, by decide⟩
  | .assignment name _ => ⟨.name name, _, rfl, by simp [Symbol.name, Symbol.kind, statementKinds,
      Expression.operandKinds]⟩
  | .conditional (.of ..) => ⟨_, _, rfl, by decide⟩
  | .returning none => ⟨_, _, rfl, by decide⟩
  | .returning (some _) => ⟨_, _, rfl, by decide⟩
  | .expression value => by
    obtain ⟨first, others, symbols, kind⟩ := value.exists_symbols
    exact ⟨first, others, symbols, List.mem_append_right _ kind⟩

/-- The first symbol becomes a token if it is no line end. -/
theorem CodeState.emitted_cons {keywords : KeywordTable} (state : CodeState)
    {symbol : Symbol keywords} (noFeed : symbol.isFeed = false) (others : List (Symbol keywords)) :
    state.emitted (symbol :: others) = symbol :: (state.past symbol).emitted others := by
  have kept : state.keeps symbol = true := by
    rw [CodeState.keeps, noFeed]
    rfl
  rw [CodeState.emitted, if_pos kept]

theorem StatementTree.startsIn (tree : StatementTree) {state : CodeState} {read : List Token}
    (told : Says read (state.emitted tree.symbols)) : StartsIn statementKinds read := by
  obtain ⟨first, others, symbols, kind⟩ := tree.exists_symbols
  have noFeed : first.isFeed = false := by
    cases first with
    | newline => exact absurd kind (by decide)
    | _ => rfl
  rw [symbols, CodeState.emitted_cons state noFeed] at told
  exact told.startsIn kind

/-- Some statements before a closing token start with a statement or with that token. -/
theorem BodyTree.startsIn (tree : BodyTree) {state : CodeState} {read : List Token}
    (told : Says read (state.emitted tree.symbols)) (closing : Token) (rest : List Token) :
    StartsIn (closing.kind :: statementKinds) (read ++ closing :: rest) := by
  cases tree with
  | empty =>
    cases told
    exact startsIn_cons rfl List.mem_cons_self
  | last statement =>
    exact ((statement.startsIn told).append _).mono (List.subset_cons_self _ _)
  | next statement separator others =>
    rw [BodyTree.symbols, CodeState.emitted_append] at told
    obtain ⟨first, second, rfl, saysFirst, _⟩ := told.of_append
    rw [List.append_assoc]
    exact ((statement.startsIn saysFirst).append _).mono (List.subset_cons_self _ _)

/-! ## Every statement is read -/

/-- What stands behind a statement may stand behind its last expression. -/
theorem FollowsStatement.behindExpression {rest : List Token} (follows : FollowsStatement rest) :
    StartsIn behindExpression rest :=
  follows.starts.mono (by decide)

/-- An expression is read as a statement. -/
theorem reads_expressionStatement (value : ExpressionTree) {block conditional : Rule Node}
    {room : Nat} (roomy : value.nest ≤ room) {read rest : List Token}
    (told : Says read value.symbols) (follows : FollowsStatement rest) :
    (single block conditional).Reads room read rest (·.bare = expressionNode value.node) := by
  have starts := startsIn_operandKinds value.exists_symbols told
  obtain ⟨token, others, rfl, kind⟩ := starts
  refine reads_of_eq ?_ (reads_expression (value.reads roomy _ rest told follows.behindExpression))
  -- an expression holds no assignment sign, and none follows where it is a statement
  have noAssign : AvoidsHead [.assign] (others ++ rest) := by
    cases others with
    | nil => exact follows.starts.avoidsHead (by decide)
    | cons second others =>
      obtain ⟨first, symbols, spelled, _⟩ := value.exists_symbols
      have avoided := value.isValue.noAssign
      rw [spelled] at told avoided
      cases told with
      | cons _ tail =>
        cases tail with
        | cons head _ =>
          rw [List.cons_append, avoidsHead_cons, head.kind, List.mem_singleton]
          exact avoided _ (List.mem_cons_of_mem _ List.mem_cons_self)
  exact single_eq_expression kind noAssign (by simp [follows.starts.ne_nil])

/-! Without a block, a statement stands on one row: all of its symbols become tokens. -/

section Rows

variable (state : CodeState) (name : Name) (value : ExpressionTree)

theorem emitted_binding : state.emitted (StatementTree.binding name value).symbols =
    (StatementTree.binding name value).symbols := by
  refine CodeState.emitted_of_noFeed fun symbol member => ?_
  simp only [StatementTree.symbols, List.mem_cons] at member
  rcases member with rfl | rfl | rfl | inner
  · rfl
  · rfl
  · rfl
  · exact value.isValue.noFeed symbol inner

theorem emitted_assignment : state.emitted (StatementTree.assignment name value).symbols =
    (StatementTree.assignment name value).symbols := by
  refine CodeState.emitted_of_noFeed fun symbol member => ?_
  simp only [StatementTree.symbols, List.mem_cons] at member
  rcases member with rfl | rfl | inner
  · rfl
  · rfl
  · exact value.isValue.noFeed symbol inner

theorem emitted_returning (value : Option ExpressionTree) :
    state.emitted (StatementTree.returning value).symbols =
      (StatementTree.returning value).symbols := by
  refine CodeState.emitted_of_noFeed fun symbol member => ?_
  cases value with
  | none =>
    rw [List.mem_singleton.mp member]
    rfl
  | some value =>
    rcases List.mem_cons.mp member with rfl | inner
    · rfl
    · exact value.isValue.noFeed symbol inner

end Rows

section Shapes

variable {block conditional : Rule Node} {room : Nat} {rest read : List Token}

/-- A function whose body is read is read as a statement. -/
theorem reads_functionStatement (name : Name) (parameters : List ParameterTree)
    (result : Option (TypeTree .pseudo)) (body : BlockTree) {head : List Token}
    (roomy : max (parametersNest parameters) (resultNest result) ≤ room)
    (told : Says head (headSymbols name parameters result)) (starts : StartsIn [.leftBrace] read)
    (reads : block.Reads room read rest (·.bare = body.node)) :
    (single block conditional).Reads room (head ++ read) rest
      (·.bare = (StatementTree.function name parameters result body).node) := by
  have startsHead : StartsIn [.fnWord] head := told.startsIn (List.mem_singleton_self _)
  exact reads_of_kind (startsHead.append read) (fun state kind => by rw [single_eq, kind])
    (reads_functionTree name parameters result roomy told starts reads)

/-- A conditional that is read is read as a statement. -/
theorem reads_conditionalStatement {tree : ConditionalTree} (starts : StartsIn [.ifWord] read)
    (reads : conditional.Reads room read rest (·.bare = tree.node)) :
    (single block conditional).Reads room read rest
      (·.bare = (StatementTree.conditional tree).node) :=
  reads_of_kind starts (fun state kind => by rw [single_eq, kind]) reads

/-- A binding is read as a statement. -/
theorem reads_bindingStatement (name : Name) (value : ExpressionTree) (roomy : value.nest ≤ room)
    (told : Says read (StatementTree.binding name value).symbols)
    (follows : FollowsStatement rest) :
    (single block conditional).Reads room read rest
      (·.bare = (StatementTree.binding name value).node) := by
  have starts : StartsIn [.letWord] read := told.startsIn (List.mem_singleton_self _)
  obtain ⟨start, _, rfl, tellsStart, saysName⟩ := told.of_cons
  obtain ⟨token, _, rfl, tells, saysSign⟩ := saysName.of_cons
  obtain ⟨sign, body, rfl, tellsSign, saysValue⟩ := saysSign.of_cons
  have inner := value.reads roomy body rest saysValue follows.behindExpression
  exact reads_of_kind starts (fun state kind => by rw [single_eq, kind])
    (reads_binding name tells tellsSign.kind inner)

/-- An assignment is read as a statement. -/
theorem reads_assignmentStatement (name : Name) (value : ExpressionTree)
    (roomy : value.nest ≤ room) (told : Says read (StatementTree.assignment name value).symbols)
    (follows : FollowsStatement rest) :
    (single block conditional).Reads room read rest
      (·.bare = (StatementTree.assignment name value).node) := by
  obtain ⟨token, _, rfl, tells, saysSign⟩ := told.of_cons
  obtain ⟨sign, body, rfl, tellsSign, saysValue⟩ := saysSign.of_cons
  have inner := value.reads roomy body rest saysValue follows.behindExpression
  refine reads_of_eq (fun state faces => ?_) (reads_assignment name tells inner)
  obtain ⟨⟨before, current, after⟩, nesting⟩ := state
  have head : current = token := (List.cons.inj faces).1
  have tail : after = sign :: body ++ rest := (List.cons.inj faces).2
  have kind : current.kind = .identifier := by
    rw [head]
    exact tells.kind
  have assigns : sign.kind = .assign := tellsSign.kind
  subst tail
  rw [single_eq, kind]
  exact if_pos assigns

/-- A return is read as a statement. -/
theorem reads_returningStatement (value : Option ExpressionTree)
    (roomy : (StatementTree.returning value).nest ≤ room)
    (told : Says read (StatementTree.returning value).symbols) (follows : FollowsStatement rest) :
    (single block conditional).Reads room read rest
      (·.bare = (StatementTree.returning value).node) := by
  have starts : StartsIn [.returnWord] read := by
    cases value <;> exact told.startsIn (List.mem_singleton_self _)
  have chosen : ∀ state : RuleState, state.cursor.current.kind = .returnWord →
      single block conditional state = returning state :=
    fun state kind => by rw [single_eq, kind]
  refine reads_of_kind starts chosen ?_
  cases value with
  | none =>
    obtain ⟨start, rfl, tells⟩ := told.of_singleton
    exact reads_returning_none follows.starts
  | some value =>
    obtain ⟨start, body, rfl, tells, saysValue⟩ := told.of_cons
    have inner := value.reads roomy body rest saysValue follows.behindExpression
    exact reads_returning (startsIn_operandKinds value.exists_symbols saysValue) inner

/-- What stands before a closing token may stand behind a statement. -/
theorem followsStatement_of_closing {closing : Token}
    (closes : closing.kind = .rightBrace ∨ closing.kind = .endOfInput) (rest : List Token) :
    FollowsStatement (closing :: rest) := by
  refine ⟨?_, noElse_cons ?_ ?_ rest⟩
  · rcases closes with same | same
    · exact startsIn_cons same (by decide)
    · exact startsIn_cons same (by decide)
  · rcases closes with same | same <;> rw [same] <;> decide
  · rcases closes with same | same <;> rw [same] <;> decide

/-- Separators may stand behind a statement if no word follows them that goes on with it. -/
theorem followsStatement_of_separators {marks : List Token} {closing : Token}
    (separates : ∀ token ∈ marks, token.kind ∈ separators) (present : marks ≠ [])
    (closes : closing.kind = .rightBrace ∨ closing.kind = .endOfInput)
    (starts : StartsIn (closing.kind :: statementKinds) rest) :
    FollowsStatement (marks ++ rest) := by
  refine ⟨?_, NoElse.append ?_ separates⟩
  · obtain ⟨mark, more, rfl⟩ := List.exists_cons_of_ne_nil present
    have ends : ∀ kind ∈ separators, kind ∈ statementEnds := by decide
    exact ⟨mark, _, rfl, ends _ (separates mark List.mem_cons_self)⟩
  · obtain ⟨next, after, rfl, kind⟩ := starts
    have apart : ∀ other ∈ closing.kind :: statementKinds,
        other ≠ .newline ∧ other ≠ .elseWord := by
      rcases closes with same | same <;> rw [same] <;> decide
    exact noElse_cons (apart _ kind).1 (apart _ kind).2 _

/-- A round that reads a statement with the separators behind it. -/
theorem reads_listRound {statement : Rule Node} {close : TokenKind} {node : Node}
    (marks : List Token) (closes : close = .rightBrace ∨ close = .endOfInput)
    (starts : StartsIn statementKinds read)
    (reads : statement.Reads room read (marks ++ rest) (·.bare = node))
    (separates : ∀ token ∈ marks, token.kind ∈ separators)
    (stops : AvoidsHead separators rest)
    (ends : marks = [] → ∃ closing others, rest = closing :: others ∧ closing.kind = close)
    (found : List Node) :
    (listRound close statement found).Reads room (read ++ marks) rest
      (Round.IsAgain fun values => ∃ value, values = found ++ [value] ∧ value.bare = node) := by
  intro nonempty before nesting enough
  obtain ⟨first, others, rfl, kind⟩ := starts
  -- what starts a statement is neither the closing token nor the end of the input
  have apart : ∀ kind ∈ statementKinds, kind ∉ [TokenKind.rightBrace, .endOfInput] := by decide
  have notBrace : first.kind ≠ .rightBrace :=
    fun same => apart _ kind (by rw [same]; exact List.mem_cons_self)
  have notEnd : first.kind ≠ .endOfInput :=
    fun same => apart _ kind (by rw [same]; exact List.mem_cons_of_mem _ List.mem_cons_self)
  have notClose : first.kind ≠ close := by
    rcases closes with rfl | rfl
    · exact notBrace
    · exact notEnd
  have reading := reads (by simp [nonempty]) before nesting enough
  simp only [listRound, List.cons_append, List.append_assoc] at reading ⊢
  simp [notClose, notEnd]
  refine reading.mono ?_ fun _ _ fault => fault
  rintro value final ⟨holds, rfl⟩
  cases marks with
  | nil =>
    -- without a separator the closing token has to follow
    obtain ⟨closing, after, rfl, same⟩ := ends rfl
    have notSeparator : close ∉ separators := by
      rw [← same]
      exact (avoidsHead_cons _ _ _).mp stops
    simp [same, notSeparator, Round.IsAgain, holds]
  | cons mark marks =>
    have first' : mark.kind ∈ separators := separates mark List.mem_cons_self
    simp [first']
    have skipped : (skip separators).Reads room (mark :: marks) rest fun _ => True :=
      reads_skip separates stops
    refine skipped.ensures nonempty enough fun _ _ => ?_
    refine ⟨⟨value, rfl, holds⟩, ?_⟩
    simp

end Shapes

/-- A block starts with a brace. -/
theorem BlockTree.startsIn (tree : BlockTree) {state : CodeState} {read : List Token}
    (told : Says read (state.emitted tree.symbols)) : StartsIn [.leftBrace] read := by
  obtain ⟨lead, body⟩ := tree
  rw [BlockTree.symbols, CodeState.emitted_cons state rfl] at told
  exact told.startsIn List.mem_cons_self

/-- A conditional starts with its word. -/
theorem ConditionalTree.startsIn (tree : ConditionalTree) {state : CodeState} {read : List Token}
    (told : Says read (state.emitted tree.symbols)) : StartsIn [.ifWord] read := by
  obtain ⟨condition, consequence, otherwise⟩ := tree
  rw [ConditionalTree.symbols, CodeState.emitted_cons state rfl] at told
  exact told.startsIn List.mem_cons_self

section Rows

variable {statement : Rule Node} {room : Nat} {read marks rest : List Token} {closing : Token}
  {node : Node} {nodes : List Node}

/-- A list of statements with some separators before the first one. -/
theorem reads_list (separates : ∀ token ∈ marks, token.kind ∈ separators)
    (starts : StartsIn (closing.kind :: statementKinds) (read ++ closing :: rest))
    (rounds : LoopReads (listRound closing.kind statement) [] room read (closing :: rest)
      (fun values => values.map Node.bare = nodes))
    (closes : closing.kind ∉ separators) :
    (Statement.list closing.kind statement).Reads room (marks ++ read) (closing :: rest)
      (fun values => values.map Node.bare = nodes) := by
  have apart : ∀ kind ∈ closing.kind :: statementKinds, kind ∉ separators := by
    intro kind member
    rcases List.mem_cons.mp member with rfl | further
    · exact closes
    · exact (by decide : ∀ kind ∈ statementKinds, kind ∉ separators) kind further
  have skipped : (skip separators).Reads room marks (read ++ closing :: rest) fun _ => True :=
    reads_skip separates (starts.avoidsHead apart)
  exact skipped.bind fun _ _ => rounds.loop

/-- The last round of a row of statements. -/
theorem reads_listRound_done (rest : List Token) (found : List Node) :
    (listRound closing.kind statement found).Reads room [] (closing :: rest)
      (Round.IsDone (· = found)) := by
  intro nonempty before nesting _
  simp [listRound, Round.IsDone]

/-- Behind the last statement no other is found. -/
theorem loopReads_nothing (rest : List Token) (found : List Node) :
    LoopReads (listRound closing.kind statement) found room [] (closing :: rest)
      (fun values => values.map Node.bare = found.map Node.bare) :=
  (LoopReads.done (reads_listRound_done rest found)).mono
    fun _ same => congrArg (List.map Node.bare) same

/-- A row of a single statement. -/
theorem loopReads_single (closes : closing.kind = .rightBrace ∨ closing.kind = .endOfInput)
    (starts : StartsIn statementKinds read)
    (reads : statement.Reads room read (closing :: rest) (·.bare = node)) (found : List Node) :
    LoopReads (listRound closing.kind statement) found room read (closing :: rest)
      (fun values => values.map Node.bare = found.map Node.bare ++ [node]) := by
  have round := reads_listRound [] closes starts reads
    (fun _ member => absurd member List.not_mem_nil)
    ((avoidsHead_cons _ _ _).mpr (by rcases closes with same | same <;> rw [same] <;> decide))
    (fun _ => ⟨closing, rest, rfl, rfl⟩) found
  rw [List.append_nil] at round
  rw [← List.append_nil read]
  refine LoopReads.again read round starts.ne_nil ?_
  rintro _ ⟨value, rfl, holds⟩
  have nothing : LoopReads (listRound closing.kind statement) (found ++ [value]) room []
      (closing :: rest) _ := loopReads_nothing rest (found ++ [value])
  rw [List.map_append, List.map_singleton, holds] at nothing
  exact nothing

/-- A row of a statement, separators and further statements. -/
theorem loopReads_next {body : List Token}
    (closes : closing.kind = .rightBrace ∨ closing.kind = .endOfInput)
    (starts : StartsIn statementKinds read)
    (reads : statement.Reads room read (marks ++ (body ++ closing :: rest)) (·.bare = node))
    (separates : ∀ token ∈ marks, token.kind ∈ separators) (present : marks ≠ [])
    (startsBody : StartsIn (closing.kind :: statementKinds) (body ++ closing :: rest))
    (others : ∀ found, LoopReads (listRound closing.kind statement) found room body
      (closing :: rest) (fun values => values.map Node.bare = found.map Node.bare ++ nodes))
    (found : List Node) :
    LoopReads (listRound closing.kind statement) found room (read ++ (marks ++ body))
      (closing :: rest)
      (fun values => values.map Node.bare = found.map Node.bare ++ node :: nodes) := by
  have stops : AvoidsHead separators (body ++ closing :: rest) := by
    refine startsBody.avoidsHead ?_
    rcases closes with same | same <;> rw [same] <;> decide
  have round := reads_listRound marks closes starts reads separates stops
    (fun nothing => absurd nothing present) found
  rw [← List.append_assoc]
  refine LoopReads.again (read ++ marks) round (by simp [present]) ?_
  rintro _ ⟨value, rfl, holds⟩
  -- the statements behind are read onto what this row has added
  have later := others (found ++ [value])
  rw [List.map_append, List.map_singleton, holds, List.append_assoc] at later
  exact later

/-- A block of the statements that the rule of its rows reads. -/
theorem reads_block {levels : Nat} {opening : Token} (opens : opening.kind = .leftBrace)
    (closes : closing.kind = .rightBrace) (separates : ∀ token ∈ marks, token.kind ∈ separators)
    (starts : StartsIn (closing.kind :: statementKinds) (read ++ closing :: rest))
    (rounds : LoopReads (listRound closing.kind
      (single (compound levels .block) (compound levels .conditional))) [] room read
      (closing :: rest) (fun values => values.map Node.bare = nodes)) :
    (compound (levels + 1) .block).Reads (room + 1) (opening :: (marks ++ (read ++ [closing]))) rest
      (·.bare = .plain .block nodes) := by
  have list := reads_list separates starts rounds (by rw [closes]; decide)
  have whole := reads_braced opens list
  rw [List.append_assoc, closes] at whole
  exact whole

end Rows

mutual

/-- A statement is read. -/
theorem StatementTree.reads : ∀ (tree : StatementTree) (state : CodeState)
    (block conditional : Rule Node) (room levels : Nat), state.openBrackets = 0 →
    Covers block conditional room levels → tree.nest ≤ levels → tree.nest ≤ room →
    ∀ {read rest : List Token}, Says read (state.emitted tree.symbols) → FollowsStatement rest →
    (single block conditional).Reads room read rest (·.bare = tree.node)
  | .function name parameters result body, state, block, conditional, room, levels, closed, covers,
    enough, roomy, read, rest, told, follows => by
    rw [StatementTree.nest] at enough roomy
    -- the head ends no line, so the block starts at the level of the statement
    have head := isPhrase_headSymbols name parameters result
    rw [StatementTree.symbols, CodeState.emitted_append,
      CodeState.emitted_of_noFeed head.noFeed] at told
    obtain ⟨first, second, rfl, saysHead, saysBody⟩ := told.of_append
    have level := head.isLevel.level state closed
    have reads : block.Reads room second rest (·.bare = body.node) :=
      covers.block _ _ _ fun deeper above => BlockTree.reads body _ deeper room level
        (Nat.le_trans (Nat.le_trans (Nat.le_max_right _ _) enough) above)
        (Nat.le_trans (Nat.le_max_right _ _) roomy) saysBody follows.starts.ne_nil
    exact reads_functionStatement name parameters result body
      (Nat.le_trans (Nat.le_max_left _ _) roomy) saysHead (BlockTree.startsIn body saysBody) reads
  | .binding name value, state, _, _, _, _, _, _, _, roomy, read, rest, told, follows => by
    rw [emitted_binding] at told
    exact reads_bindingStatement name value roomy told follows
  | .assignment name value, state, _, _, _, _, _, _, _, roomy, read, rest, told, follows => by
    rw [emitted_assignment] at told
    exact reads_assignmentStatement name value roomy told follows
  | .conditional tree, state, block, conditional, room, levels, closed, covers, enough, roomy,
    read, rest, told, follows =>
    reads_conditionalStatement (ConditionalTree.startsIn tree told)
      (covers.conditional _ _ _ fun deeper above => ConditionalTree.reads tree state deeper room
        closed (Nat.le_trans enough above) roomy told follows)
  | .returning value, state, _, _, _, _, _, _, _, roomy, read, rest, told, follows => by
    rw [emitted_returning] at told
    exact reads_returningStatement value roomy told follows
  | .expression value, state, _, _, _, _, _, _, _, roomy, read, rest, told, follows => by
    rw [StatementTree.symbols, CodeState.emitted_of_noFeed value.isValue.noFeed] at told
    exact reads_expressionStatement value roomy told follows

/-- A conditional is read. -/
theorem ConditionalTree.reads : ∀ (tree : ConditionalTree) (state : CodeState) (levels room : Nat),
    state.openBrackets = 0 → tree.nest ≤ levels → tree.nest ≤ room →
    ∀ {read rest : List Token}, Says read (state.emitted tree.symbols) → FollowsStatement rest →
    (compound levels .conditional).Reads room read rest (·.bare = tree.node)
  | .of condition consequence otherwise, state, levels, room, closed, enough, roomy, read, rest,
    told, follows => by
    rw [ConditionalTree.nest] at enough roomy
    -- a level is entered for the conditional itself, since its condition is nested
    have positive : 1 ≤ condition.nest := Nat.le_add_left 1 _
    obtain ⟨levels, rfl⟩ : ∃ inner, levels = inner + 1 := ⟨levels - 1, by omega⟩
    have head : IsPhrase (ifSymbol :: condition.symbols) := condition.isValue.toIsPhrase.cons rfl
    rw [ConditionalTree.symbols, ← List.cons_append, CodeState.emitted_append,
      CodeState.emitted_of_noFeed head.noFeed, CodeState.emitted_append] at told
    have level := head.isLevel.level state closed
    obtain ⟨headRead, tailRead, rfl, saysHead, saysTail⟩ := told.of_append
    obtain ⟨start, conditionRead, rfl, tells, saysCondition⟩ := saysHead.of_cons
    obtain ⟨blockRead, otherRead, rfl, saysBlock, saysOther⟩ := saysTail.of_append
    have levelBehind := consequence.endsLine.level _ level
    have others := OtherwiseTree.reads otherwise _ levels room levelBehind (by omega) (by omega)
      saysOther follows
    have nonempty : otherRead ++ rest ≠ [] := by simp [follows.starts.ne_nil]
    have block := BlockTree.reads consequence _ (levels + 1) room level (by omega) (by omega)
      saysBlock nonempty
    have conditionStops : StartsIn behindExpression (blockRead ++ (otherRead ++ rest)) :=
      ((BlockTree.startsIn consequence saysBlock).append _).mono (by decide)
    exact reads_conditional (condition.reads (by omega) _ _ saysCondition conditionStops) block
      others

/-- The other branch of a conditional is read. -/
theorem OtherwiseTree.reads : ∀ (tree : OtherwiseTree) (state : CodeState) (levels room : Nat),
    state.openBrackets = 0 → tree.nest ≤ levels + 1 → tree.nest ≤ room →
    ∀ {read rest : List Token}, Says read (state.emitted tree.symbols) → FollowsStatement rest →
    (alternative (compound (levels + 1) .block) (nested (compound levels .conditional))).Reads room
      read rest (fun values => values.map Node.bare = tree.nodes)
  | .none, _, _, _, _, _, _, _, _, told, follows => by
    cases told
    exact reads_alternative_none _ _ follows.noElse
  | .block tree, state, levels, room, closed, enough, roomy, _, rest, told, follows => by
    rw [OtherwiseTree.symbols, CodeState.emitted_cons state rfl] at told
    obtain ⟨word, body, rfl, tells, saysBlock⟩ := told.of_cons
    have level := isLevel_elseSymbol.level state closed
    have starts := BlockTree.startsIn tree saysBlock
    have block := BlockTree.reads tree _ (levels + 1) room level enough roomy saysBlock
      follows.starts.ne_nil
    refine reads_alternative tells.kind ?_ starts.ne_nil block
    intro token others faces
    rw [faces] at starts
    -- a block does not start with the word of a conditional
    have other : token.kind ≠ .ifWord := by
      rw [starts.kind]
      decide
    rw [if_neg other]
  | .conditional tree, state, levels, room, closed, enough, roomy, _, rest, told, follows => by
    rw [OtherwiseTree.nest] at enough roomy
    rw [OtherwiseTree.symbols, CodeState.emitted_cons state rfl] at told
    obtain ⟨word, body, rfl, tells, saysTree⟩ := told.of_cons
    have level := isLevel_elseSymbol.level state closed
    have starts := ConditionalTree.startsIn tree saysTree
    obtain ⟨room, rfl⟩ : ∃ inner, room = inner + 1 := ⟨room - 1, by omega⟩
    have conditional := ConditionalTree.reads tree _ levels room level (by omega) (by omega)
      saysTree follows
    refine reads_alternative tells.kind ?_ starts.ne_nil conditional.nested
    intro token others faces
    rw [faces] at starts
    rw [if_pos starts.kind]

/-- A block is read. -/
theorem BlockTree.reads : ∀ (tree : BlockTree) (state : CodeState) (levels room : Nat),
    state.openBrackets = 0 → tree.nest ≤ levels → tree.nest ≤ room →
    ∀ {read rest : List Token}, Says read (state.emitted tree.symbols) → rest ≠ [] →
    (compound levels .block).Reads room read rest (·.bare = tree.node)
  | .of lead body, state, levels, room, closed, enough, roomy, _, rest, told, nonempty => by
    rw [BlockTree.nest] at enough roomy
    obtain ⟨levels, rfl⟩ : ∃ inner, levels = inner + 1 := ⟨levels - 1, by omega⟩
    obtain ⟨room, rfl⟩ : ∃ inner, room = inner + 1 := ⟨room - 1, by omega⟩
    rw [BlockTree.symbols, CodeState.emitted_cons state rfl, CodeState.emitted_append,
      CodeState.emitted_append] at told
    have braceLevel : IsLevel [(.leftBrace : Symbol .pseudo)] :=
      (isPhrase_singleton rfl).isLevel
    have inside := braceLevel.level state closed
    have behindLead := (isLevel_markSymbols lead).level _ inside
    obtain ⟨opening, _, rfl, tellsOpening, saysInner⟩ := told.of_cons
    obtain ⟨leadRead, _, rfl, saysLead, saysMore⟩ := saysInner.of_append
    obtain ⟨bodyRead, _, rfl, saysBody, saysLast⟩ := saysMore.of_append
    -- behind the body the brackets are balanced, so the brace closes this block
    rw [CodeState.emitted_cons _ rfl] at saysLast
    obtain ⟨closing, rfl, tellsClosing⟩ := saysLast.of_singleton
    have closes : closing.kind = .rightBrace := tellsClosing.kind
    have rounds := BodyTree.loopReads body _ _ _ room levels behindLead
      (covers_compound (Nat.le_refl levels)) (by omega) (by omega) saysBody (.inl closes) rest []
    exact reads_block tellsOpening.kind closes (kind_of_marks _ _ saysLead)
      (body.startsIn saysBody closing rest) rounds

/-- Some statements are read up to a closing token. -/
theorem BodyTree.loopReads : ∀ (tree : BodyTree) (state : CodeState)
    (block conditional : Rule Node) (room levels : Nat), state.openBrackets = 0 →
    Covers block conditional room levels → tree.nest ≤ levels → tree.nest ≤ room →
    ∀ {read : List Token}, Says read (state.emitted tree.symbols) → ∀ {closing : Token},
    closing.kind = .rightBrace ∨ closing.kind = .endOfInput → ∀ (rest : List Token)
    (found : List Node),
    LoopReads (listRound closing.kind (single block conditional)) found room read (closing :: rest)
      (fun values => values.map Node.bare = found.map Node.bare ++ tree.nodes)
  | .empty, _, _, _, _, _, _, _, _, _, _, told, closing, _, rest, found => by
    cases told
    rw [BodyTree.nodes, List.append_nil]
    exact loopReads_nothing rest found
  | .last statement, state, block, conditional, room, levels, closed, covers, enough, roomy, read,
    told, closing, closes, rest, found =>
    loopReads_single closes (statement.startsIn told)
      (StatementTree.reads statement state block conditional room levels closed covers enough roomy
        told (followsStatement_of_closing closes rest)) found
  | .next statement separator others, state, block, conditional, room, levels, closed, covers,
    enough, roomy, _, told, closing, closes, rest, found => by
    rw [BodyTree.nest] at enough roomy
    rw [BodyTree.symbols, CodeState.emitted_append, CodeState.emitted_append] at told
    obtain ⟨first, _, rfl, saysStatement, saysMore⟩ := told.of_append
    obtain ⟨marks, body, rfl, saysMarks, saysOthers⟩ := saysMore.of_append
    have ends := statement.endsLine.ends state closed
    -- the level is the same behind the statement and behind its separators
    have behind := statement.endsLine.level state closed
    have further := (isLevel_markSymbols (separator.first :: separator.others)).level _ behind
    have separates := kind_of_marks _ _ saysMarks
    have present := ne_nil_of_separator ends separator saysMarks
    have starts := BodyTree.startsIn others saysOthers closing rest
    have reads := StatementTree.reads statement state block conditional room levels closed covers
      (Nat.le_trans (Nat.le_max_left _ _) enough) (Nat.le_trans (Nat.le_max_left _ _) roomy)
      saysStatement (followsStatement_of_separators separates present closes starts)
    exact loopReads_next closes (statement.startsIn saysStatement) reads separates present starts
      (fun found => BodyTree.loopReads others _ block conditional room levels further covers
        (Nat.le_trans (Nat.le_max_right _ _) enough) (Nat.le_trans (Nat.le_max_right _ _) roomy)
        saysOthers closes rest found) found

end

end DocGrammar
