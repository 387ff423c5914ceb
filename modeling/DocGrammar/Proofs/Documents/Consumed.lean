import DocGrammar.Proofs.Documents.Balanced
import DocGrammar.Proofs.Documents.Depth

/-! # Rules read all of their tokens

The rule of a whole text or of a whole section comes to an end on any tokens that end with the
input, and a success leaves no token unread. The rounds of its repetitions are bounded by the tokens
ahead, since each that others follow moves the cursor on.

* **`Repetition`** — the rounds of all repetitions, with **`Repetition.forward`**.
* **`Cursor.skip_forward`** — skipping, one token after the other.
* **`WholeRule`** — the rules of whole texts and sections.
* **`WholeRule.reads_all_tokens`** — they end, inside the tokens, and succeed at the last token
  only. -/

namespace DocGrammar

open Rule

/-! ## Tokens that are seen -/

/-- Before the end of the input there are tokens of other kinds. -/
theorem EndsInput.exists_concat {tokens : List Token} (ends : EndsInput tokens) :
    ∃ before last, tokens = before ++ [last] ∧ last.kind = .endOfInput ∧
      ∀ token ∈ before, token.kind ≠ .endOfInput := by
  induction tokens with
  | nil => exact ends.elim
  | cons token others ih =>
    cases others with
    | nil => exact ⟨[], token, rfl, ends, List.forall_mem_nil _⟩
    | cons next more =>
      obtain ⟨before, last, same, kind, inner⟩ := ih ends.2
      exact ⟨token :: before, last, congrArg (token :: ·) same, kind,
        List.forall_mem_cons.mpr ⟨ends.1, inner⟩⟩

/-- Without its comments, what ends with the input still does. -/
theorem EndsInput.seen {tokens : List Token} (ends : EndsInput tokens) :
    EndsInput (WalkM.seen tokens) := by
  obtain ⟨before, last, rfl, kind, inner⟩ := ends.exists_concat
  have kept : WalkM.seen [last] = [last] := by
    refine WalkM.seen_eq_self (List.forall_mem_singleton.mpr ?_)
    rw [kind]
    decide
  rw [WalkM.seen, List.filter_append, ← WalkM.seen, ← WalkM.seen, kept]
  have last : EndsInput [last] := kind
  exact last.append fun token member => inner token (List.mem_filter.mp member).1

namespace Cursor

variable {cursor : Cursor} {kinds : List TokenKind}

/-- A cursor stands on one of its tokens. -/
theorem position_lt_length (cursor : Cursor) : cursor.position < cursor.tokens.length := by
  simp [position, tokens]

/-- A cursor that is not on the last token moves on. -/
theorem position_advance (others : cursor.after ≠ []) :
    cursor.advance.position = cursor.position + 1 := by
  obtain ⟨before, current, after⟩ := cursor
  obtain ⟨next, more, rfl⟩ := List.exists_cons_of_ne_nil others
  rfl

/-- Skipping goes on behind a token of the kinds, unless it is the last one. -/
theorem skip_of_mem (member : cursor.current.kind ∈ kinds) (others : cursor.after ≠ []) :
    cursor.skip kinds = cursor.advance.skip kinds := by
  obtain ⟨before, current, after⟩ := cursor
  obtain ⟨next, more, rfl⟩ := List.exists_cons_of_ne_nil others
  exact if_pos member

/-- Skipping stops in front of a token of another kind. -/
theorem skip_of_not_mem (other : cursor.current.kind ∉ kinds) : cursor.skip kinds = cursor := by
  obtain ⟨before, current, after⟩ := cursor
  cases after with
  | nil => rfl
  | cons next more => exact if_neg other

/-- Skipping other kinds than the end of the input moves the cursor behind each token of the kinds,
and stops at the first one of another kind. -/
theorem skip_forward (inner : .endOfInput ∉ kinds) (ends : EndsInput cursor.rest) :
    if cursor.current.kind ∈ kinds then
      cursor.position < cursor.advance.position ∧ cursor.skip kinds = cursor.advance.skip kinds
    else cursor.skip kinds = cursor := by
  split
  · next member =>
    have others : cursor.after ≠ [] := by
      intro none
      rw [rest, none, endsInput_singleton] at ends
      exact inner (ends ▸ member)
    exact ⟨position_advance others ▸ Nat.lt_succ_self _, skip_of_mem member others⟩
  · next other => exact skip_of_not_mem other

/-- On tokens that end with the input there is a place to start, before all tokens that are seen. -/
theorem exists_ofTokens? {tokens : List Token} (ends : EndsInput tokens) :
    ∃ cursor, ofTokens? tokens = some cursor ∧ cursor.tokens = WalkM.seen tokens ∧
      EndsInput cursor.rest := by
  have seen := ends.seen
  obtain ⟨first, others, kept⟩ := List.exists_cons_of_ne_nil seen.ne_nil
  rw [kept] at seen
  refine ⟨⟨[], first, others⟩, ?_, kept.symm, seen⟩
  rw [WalkM.seen] at kept
  rw [ofTokens?, kept]

end Cursor

/-! ## Rounds of types -/

namespace TypeExpr

variable {inner : Rule Node}

theorem takes_upTo (levels : Nat) : (upTo levels).Takes fun _ => 0 :=
  (yields_upTo levels).takes (fun _ refusable => refusable.recoverable) fun _ _ _ _ => Nat.zero_le _

/-- A property reads at least its name. -/
theorem takes_propertyRound (types : inner.Yields Refusable ReadsType) (found : List Node) :
    (propertyRound inner found).Takes Round.taken := by
  refine (yields_propertyRound types found).takes (fun _ refusable => refusable.recoverable) ?_
  rintro room read (next | result) reads
  · obtain ⟨form, feedsBehind, _, _, ⟨_, rfl⟩ | ⟨_, mark, feeds, rfl⟩⟩ := reads
    · obtain ⟨word, more, tokens⟩ := form.exists_tokens
      simp [Round.taken, tokens]
    · simp [Round.taken]
  · exact Nat.zero_le _

theorem takes_bracketRound (element : Node) : (bracketRound element).Takes Round.taken := by
  refine (yields_bracketRound element).takes (fun _ refusable => refusable.recoverable) ?_
  rintro room read (next | result) reads
  · obtain ⟨opening, closing, _, rfl⟩ := reads
    exact Nat.le_succ 1
  · exact Nat.zero_le _

theorem takes_unionRound (types : inner.Yields Refusable ReadsType) (left : Node) :
    (unionRound inner left).Takes Round.taken := by
  refine (yields_unionRound types left).takes (fun _ refusable => refusable.recoverable) ?_
  rintro room read (next | result) reads
  · obtain ⟨mark, form, _, _, rfl⟩ := reads
    exact Nat.le_add_left 1 _
  · exact Nat.zero_le _

end TypeExpr

/-! ## Rounds of expressions and statements -/

theorem takes_of_built {rule : Rule Node} {kinds : List NodeKind}
    (gives : rule.Gives (BuildsPseudo kinds)) : rule.Takes fun _ => 1 :=
  gives.takes fun _ _ built => List.length_pos_iff.mpr built.ne_nil

namespace Expression

variable {token : Token} {inner : Nat → Rule Node} (takes : ∀ power, (inner power).Takes fun _ => 1)

theorem takes_upTo (levels least : Nat) : (upTo levels least).Takes fun _ => 1 :=
  takes_of_built (gives_upTo levels least)

include takes

theorem takesFrom_arguments (opening : token.kind = .leftParen) :
    (arguments inner).TakesFrom token fun _ => 1 :=
  (takesFrom_advance opening (by decide)).before fun _ =>
    (takes_delimited takes_comma (takes 0)).then fun _ => takes_advance.then fun _ => takes_pure rfl

theorem takesFrom_member (dot : token.kind = .dot) (receiver : Node) :
    (member inner receiver).TakesFrom token fun _ => 1 := by
  refine (takesFrom_advance dot (by decide)).before fun _ => ?_
  refine takes_identifier.zero.then fun name => ?_
  refine takes_of_from fun token => takesFrom_isAt (TakesFrom.ite (fun opening => ?_) fun _ => ?_)
  · refine ((takesFrom_arguments takes (of_decide_eq_true opening)).before fun _ => ?_).mono
      fun _ => Nat.zero_le 1
    exact takes_previous.then fun _ => takes_pure rfl
  · exact (takes_pure rfl).from token

omit takes in
theorem takesFrom_scope (mark : token.kind = .doubleColon) (outer : Node) :
    (scope outer).TakesFrom token fun _ => 1 :=
  (takesFrom_advance mark (by decide)).before fun _ =>
    takes_identifier.zero.then fun _ => takes_pure rfl

theorem takesFrom_call (opening : token.kind = .leftParen) (callee : Node) :
    (call inner callee).TakesFrom token fun _ => 1 :=
  (takesFrom_arguments takes opening).before fun _ => takes_previous.then fun _ => takes_pure rfl

theorem takesFrom_operation (known : token.kind ≠ .endOfInput) (power : BindingPower)
    (left : Node) : (operation inner power left).TakesFrom token fun _ => 1 :=
  (takesFrom_advance rfl known).before fun _ => takes_skipNewlines.then fun _ =>
    (takes power.right).zero.then fun _ => takes_pure rfl

/-- Whatever stands before it, a postfix form or an operator reads a token. -/
theorem takes_tail (least : Nat) (left : Node) : (tail inner least left).Takes Round.taken := by
  have again : ∀ {rule : Rule Node} {token : Token}, rule.TakesFrom token (fun _ => 1) →
      (do return .again (← rule) : Rule (Round Node Node)).TakesFrom token Round.taken :=
    fun takes => (takes.before fun _ => takes_pure rfl).round
  refine takes_current fun token => ?_
  refine TakesFrom.ite (fun dot => again (takesFrom_member takes dot left)) fun _ => ?_
  refine TakesFrom.ite (fun mark => ?_) fun _ => TakesFrom.ite (fun opening => ?_) fun _ => ?_
  · rw [Bool.and_eq_true, decide_eq_true_eq] at mark
    exact again (takesFrom_scope mark.1 left)
  · rw [Bool.and_eq_true, decide_eq_true_eq] at opening
    exact again (takesFrom_call takes opening.1 left)
  split
  · exact (takes_pure rfl).from token
  · next power powers =>
    have known : token.kind ≠ .endOfInput := by
      intro finish
      rw [finish] at powers
      cases powers
    exact TakesFrom.ite (fun _ => (takes_pure rfl).from token)
      fun _ => again (takesFrom_operation takes known power left)

theorem takes_property : (property inner).Takes fun _ => 1 := by
  have key : propertyKey.Takes fun _ => 1 := by
    refine takes_current fun token => ?_
    split
    · next kind => exact takesFrom_leaf kind (by decide)
    · next kind => exact takesFrom_leaf kind (by decide)
    · exact (takes_unexpected _ _).from token
  exact key.before fun _ => (takes_expect (by decide) _).zero.then fun _ =>
    (takes 0).zero.then fun _ => takes_pure rfl

end Expression

namespace Statement

/-- A statement takes a token, and separators behind it may be taken as well. -/
theorem takes_listRound {statement : Rule Node} (takes : statement.Takes fun _ => 1)
    (close : TokenKind) (found : List Node) :
    (listRound close statement found).Takes Round.taken := by
  refine takes_current fun token => TakesFrom.ite (fun _ => (takes_pure rfl).from token) fun _ =>
    TakesFrom.ite (fun _ => (takes_unexpected_bind _ _ _).from token) fun _ => ?_
  refine ((takes.before fun next => takes_current fun behind => ?_).from token).round
  refine TakesFrom.ite (fun _ => ?_) fun _ => TakesFrom.ite (fun _ => ?_) fun _ => ?_
  · have skips : (skip separators).Takes fun _ => 0 :=
      (gives_skip (by decide)).takes fun _ _ _ => Nat.zero_le _
    exact (skips.then fun _ => takes_pure rfl).from behind
  · exact (takes_unexpected_bind _ _ _).from behind
  · exact (takes_pure rfl).from behind

theorem takes_parameter : parameter.Takes fun _ => 1 :=
  takes_identifier.before fun _ => (takes_expect (by decide) _).zero.then fun _ =>
    TypeExpr.takes_rule.then fun _ => takes_pure rfl

end Statement

/-! ## Repetitions -/

/-- The rounds of the repetitions in the rules of types, of statements and of specs sections, with
any number of levels for what is nested in them. -/
inductive Repetition : {α β : Type} → (α → Rule (Round α β)) → Prop
  /-- The properties of an object type. -/
  | properties (levels : Nat) :
    Repetition (TypeExpr.propertyRound (TypeExpr.upTo levels))
  /-- The arguments of a type. -/
  | typeArguments (levels : Nat) : Repetition (chainRound .comma (TypeExpr.upTo levels))
  /-- The brackets behind the type of elements. -/
  | brackets : Repetition TypeExpr.bracketRound
  /-- The alternatives of a union. -/
  | alternatives (levels : Nat) : Repetition (TypeExpr.unionRound (TypeExpr.upTo levels))
  /-- The postfix forms and operators behind an operand. -/
  | operators (levels least : Nat) :
    Repetition (Expression.tail (Expression.upTo levels) least)
  /-- The arguments of a call, or the elements of an array. -/
  | values (close : TokenKind) (levels : Nat) :
    Repetition (delimitedRound close comma (Expression.upTo levels 0))
  /-- The properties of an object. -/
  | objectProperties (levels : Nat) :
    Repetition (delimitedRound .rightBrace (do comma; skipNewlines)
      (do let found ← Expression.property (Expression.upTo levels); skipNewlines; return found))
  /-- The parameters of a function. -/
  | parameters : Repetition (delimitedRound .rightParen comma Statement.parameter)
  /-- The statements of a block. -/
  | block (levels : Nat) :
    Repetition (Statement.listRound .rightBrace (Statement.single
      (Statement.compound levels .block) (Statement.compound levels .conditional)))
  /-- The statements of a whole text. -/
  | statements :
    Repetition (Statement.listRound .endOfInput (Statement.single
      (Statement.compoundRule .block) (Statement.compoundRule .conditional)))
  /-- The lines of a section. -/
  | lines (part : SpecSection) : Repetition (SpecSection.lineRound part.line)
  /-- The names of errors, or of properties. -/
  | names (separator : TokenKind) (inner : separator ≠ .endOfInput) :
    Repetition (chainRound separator identifier)
  /-- The arguments of a call in an example. -/
  | exampleArguments : Repetition (delimitedRound .rightParen comma SpecLine.argument)
  /-- The properties of an object in an example. -/
  | assignments : Repetition (delimitedRound .rightBrace comma SpecLine.property)

namespace Repetition

variable {α β : Type} {round : α → Rule (Round α β)}

/-- A round that others follow takes a token. -/
theorem takes (repetition : Repetition round) (value : α) : (round value).Takes Round.taken := by
  cases repetition with
  | properties levels => exact TypeExpr.takes_propertyRound (TypeExpr.yields_upTo levels) value
  | typeArguments levels => exact takes_chainRound (by decide) (TypeExpr.takes_upTo levels) value
  | brackets => exact TypeExpr.takes_bracketRound value
  | alternatives levels => exact TypeExpr.takes_unionRound (TypeExpr.yields_upTo levels) value
  | operators levels least => exact Expression.takes_tail (Expression.takes_upTo levels) least value
  | values close levels =>
    exact takes_delimitedRound takes_comma (Expression.takes_upTo levels 0) value
  | objectProperties levels =>
    refine takes_delimitedRound (takes_comma.then fun _ => takes_skipNewlines) ?_ value
    exact (Expression.takes_property (Expression.takes_upTo levels)).before fun _ =>
      takes_skipNewlines.then fun _ => takes_pure rfl
  | parameters => exact takes_delimitedRound takes_comma Statement.takes_parameter value
  | block levels =>
    refine Statement.takes_listRound (takes_of_built (Statement.gives_single ?_ ?_)) _ value
    · exact Statement.builds_compound levels .block
    · exact Statement.builds_compound levels .conditional
  | statements =>
    refine Statement.takes_listRound (takes_of_built (Statement.gives_single ?_ ?_)) _ value
    · exact Statement.builds_compoundRule .block
    · exact Statement.builds_compoundRule .conditional
  | lines part => exact SpecSection.takes_lineRound part.takes_line value
  | names separator inner => exact takes_chainRound inner takes_identifier.zero value
  | exampleArguments => exact takes_delimitedRound takes_comma SpecLine.takes_argument value
  | assignments => exact takes_delimitedRound takes_comma SpecLine.takes_property value

/-- A round that others follow moves the cursor on. -/
theorem forward (repetition : Repetition round) {value next : α} {state final : RuleState}
    (ends : EndsInput state.cursor.rest) (again : round value state = .ok (.again next) final) :
    state.cursor.position < final.cursor.position := by
  have ensured := repetition.takes value state ends
  rw [Ensures, again] at ensured
  obtain ⟨read, moved, enough⟩ := ensured
  have positive : 1 ≤ read.length := enough
  rw [Cursor.position, Cursor.position, moved.before, List.length_append, List.length_reverse]
  omega

end Repetition

/-! ## Whole rules -/

/-- The rules that read all of their tokens. -/
inductive WholeRule : {α : Type} → Rule α → Prop
  /-- A type that is all there is. -/
  | type : WholeRule TypeExpr.complete
  /-- The statements of a fenced block. -/
  | statements : WholeRule Statement.all
  /-- The body of a specs section. -/
  | body (part : SpecSection) : WholeRule part.body

/-- A sequence stops where its second part does. -/
theorem Rule.ensures_behind {α β : Type} {rule : Rule α} {next : α → Rule β} {state : RuleState}
    {post : β → RuleState → Prop}
    (last : ∀ value middle, (next value).Ensures middle post fun _ _ => True) :
    (rule >>= next).Ensures state post fun _ _ => True := by
  rw [ensures_bind]
  exact (ensures_trivial rule state).mono (fun value middle _ => last value middle)
    fun _ _ _ => trivial

/-- A rule that is refused unless the input ends stops in front of the end of the input. -/
theorem Rule.ensures_ended {α : Type} (cause : Token → Cause) (value : α) (state : RuleState) :
    (do
      let rest ← current
      if rest.kind ≠ .endOfInput then refuse (cause rest) rest.span
      return value : Rule α).Ensures state
      (fun _ final => final.cursor.current.kind = .endOfInput) fun _ _ => True := by
  rw [ensures_bind, ensures_current, ensures_ite]
  split
  · trivial
  · next finish =>
    show state.cursor.current.kind = .endOfInput
    exact Decidable.not_not.mp finish

/-- Whether a rule that succeeds stops in front of the end of the input. -/
def Rule.StopsAtEnd {α : Type} (rule : Rule α) : Prop :=
  ∀ state, EndsInput state.cursor.rest →
    rule.Ensures state (fun _ final => final.cursor.current.kind = .endOfInput) fun _ _ => True

namespace WholeRule

variable {α : Type} {rule : Rule α}

theorem parser (whole : WholeRule rule) : ParserRule rule := by
  cases whole with
  | type => exact .type .complete
  | statements => exact .statement .all
  | body part => exact .body (.body part)

theorem takes (whole : WholeRule rule) : rule.Takes fun _ => 0 := by
  cases whole with
  | type => exact TypeExpr.takes_complete
  | statements => exact Statement.gives_all.takes fun _ _ _ => Nat.zero_le _
  | body part => exact part.takes_body

theorem stopsAtEnd_lines (spec : Rule Node) : (SpecSection.lines spec).StopsAtEnd := by
  intro state _
  refine ensures_behind fun _ middle => ensures_loop_done (fun found state => ?_) [] _
  rw [SpecSection.lineRound, ensures_bind, ensures_isAt, ensures_ite]
  split
  · next finish => exact fun _ _ => of_decide_eq_true finish
  · refine ensures_behind fun _ _ => ensures_behind fun _ _ => ensures_behind fun _ _ => ?_
    rintro _ ⟨⟩

theorem stopsAtEnd_declaration : SpecSection.declaration.StopsAtEnd := by
  refine fun state _ => ensures_behind fun _ _ => ensures_behind fun first _ => ?_
  rw [ensures_ite]
  split
  · trivial
  · exact ensures_behind fun found _ => ensures_behind fun _ _ => ensures_behind fun _ last =>
      ensures_ended (fun _ => .secondDeclaration) found last

/-- A whole rule that succeeds stops in front of the end of the input. -/
theorem stopsAtEnd (whole : WholeRule rule) : rule.StopsAtEnd := by
  -- What is made of the value behind a rule does not move the cursor.
  have around {β : Type} {rule : Rule β} (stops : rule.StopsAtEnd) (convert : β → Node) :
      (do return convert (← rule) : Rule Node).StopsAtEnd := by
    intro state ends
    rw [ensures_bind]
    exact stops state ends
  cases whole with
  | type =>
    exact fun state _ => ensures_behind fun _ _ => ensures_behind fun result _ =>
      ensures_behind fun _ last => ensures_ended (fun rest => .malformedType rest.kind rest.value _)
        result last
  | statements =>
    intro state ends
    have gives : Statement.all.GivesUpTo .endOfInput (Built .pseudo NodeKind.statements) :=
      Statement.givesUpTo_list (Statement.gives_single
        (Statement.builds_compoundRule .block) (Statement.builds_compoundRule .conditional))
    exact (gives state ends).mono (fun _ _ stops => stops.1) fun _ _ _ => trivial
  | body part =>
    cases part with
    | intent => exact around stopsAtEnd_declaration fun found => .branch .intentSection [found]
    | _ => exact around (stopsAtEnd_lines _) _

/-- A whole rule that succeeds has left no token unread, and one that fails did not run out of
rounds. -/
theorem settles (whole : WholeRule rule) (state : RuleState) (ends : EndsInput state.cursor.rest) :
    match rule state with
    | .ok _ final => final.cursor.tokens = state.cursor.tokens ∧
        final.cursor.current.kind = .endOfInput ∧ final.cursor.after = []
    | .error failure _ => failure ≠ .exhausted := by
  obtain ⟨visited, course⟩ := (whole.parser.steps state).course
  have tokens := course.beside.tokens
  have ensured := (whole.takes state ends).and (whole.stopsAtEnd state ends)
  unfold Ensures at ensured
  cases outcome : rule state with
  | ok value final =>
    rw [outcome] at ensured tokens
    obtain ⟨⟨read, moved, _⟩, stops⟩ := ensured
    exact ⟨tokens, stops, EndsInput.eq_nil (moved.endsInput ends) stops⟩
  | error failure final =>
    rw [outcome] at ensured
    obtain ⟨⟨_, cause, span, rfl, _⟩, _⟩ := ensured
    exact fun same => Failure.noConfusion same

/-- On tokens that end with the input, at any nesting, a whole rule comes in steps to its outcome
and never runs out of rounds. The cursor stays on the tokens all the way, and a success leaves it on
the last one. In each repetition a round that others follow moves the cursor on, and skipping moves
it on token by token up to one of another kind. -/
theorem reads_all_tokens (whole : WholeRule rule) {tokens : List Token} (ends : EndsInput tokens)
    (nesting : Nesting) :
    (∃ cursor, Cursor.ofTokens? tokens = some cursor ∧
      (∃ visited, Course rule ⟨cursor, nesting⟩ visited (rule ⟨cursor, nesting⟩)) ∧
      (∀ visited outcome, Course rule ⟨cursor, nesting⟩ visited outcome →
        ∀ moment ∈ visited, moment.cursor.tokens = WalkM.seen tokens ∧
          moment.cursor.position < (WalkM.seen tokens).length) ∧
      match rule ⟨cursor, nesting⟩ with
      | .ok _ final => final.cursor.tokens = WalkM.seen tokens ∧
          final.cursor.current.kind = .endOfInput ∧ final.cursor.after = []
      | .error failure _ => failure ≠ .exhausted) ∧
    (∀ {β γ : Type} {round : β → Rule (Round β γ)}, Repetition round →
      ∀ value next state final, EndsInput state.cursor.rest →
        round value state = .ok (.again next) final →
        state.cursor.position < final.cursor.position) ∧
    ∀ (kinds : List TokenKind) (cursor : Cursor), .endOfInput ∉ kinds → EndsInput cursor.rest →
      if cursor.current.kind ∈ kinds then
        cursor.position < cursor.advance.position ∧
          cursor.skip kinds = cursor.advance.skip kinds
      else cursor.skip kinds = cursor := by
  refine ⟨?_, fun repetition _ _ _ _ ends again => repetition.forward ends again,
    fun _ _ inner ends => Cursor.skip_forward inner ends⟩
  obtain ⟨cursor, starts, all, ahead⟩ := Cursor.exists_ofTokens? ends
  refine ⟨cursor, starts, (whole.parser.steps _).course, ?_, ?_⟩
  · intro visited outcome course moment member
    have same : moment.cursor.tokens = WalkM.seen tokens :=
      (course.inside moment member).tokens.trans all
    exact ⟨same, same ▸ moment.cursor.position_lt_length⟩
  · -- where a whole rule succeeds it stands on the last token
    have settled := whole.settles ⟨cursor, nesting⟩ ahead
    rwa [all] at settled

/-- A name behind a comment, with a line end behind it. -/
def commentedName : List Token :=
  [⟨.comment, "//", ⟨"f", ⟨1, 1⟩, ⟨1, 2⟩⟩⟩, ⟨.identifier, "A", ⟨"f", ⟨2, 1⟩, ⟨2, 1⟩⟩⟩,
    ⟨.newline, "\n", ⟨"f", ⟨2, 2⟩, ⟨2, 2⟩⟩⟩, ⟨.endOfInput, "", ⟨"f", ⟨3, 1⟩, ⟨3, 1⟩⟩⟩]

/-- A type that is read to the end. -/
theorem reads_all_tokens_commentedName :
    EndsInput commentedName ∧
    ∃ cursor, Cursor.ofTokens? commentedName = some cursor ∧
      (∃ visited, Course TypeExpr.complete ⟨cursor, ⟨1, 0⟩⟩ visited
        (TypeExpr.complete ⟨cursor, ⟨1, 0⟩⟩)) ∧
      ∃ node final, TypeExpr.complete ⟨cursor, ⟨1, 0⟩⟩ = .ok node final ∧
        final.cursor.current.kind = .endOfInput ∧ final.cursor.after = [] := by
  have ends : EndsInput commentedName := ⟨by decide, by decide, by decide, rfl⟩
  obtain ⟨⟨cursor, starts, steps, _, settled⟩, _⟩ := reads_all_tokens .type ends ⟨1, 0⟩
  refine ⟨ends, cursor, starts, steps, ?_⟩
  obtain rfl := Option.some.inj starts
  exact ⟨_, _, rfl, settled.2⟩

end WholeRule

end DocGrammar
