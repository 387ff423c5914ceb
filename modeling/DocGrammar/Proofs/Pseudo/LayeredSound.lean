import DocGrammar.Proofs.Pseudo.Layered
import DocGrammar.Proofs.Pseudo.Rounds

/-! # Expressions follow the layered grammar

What the rule of expressions reads is derived in the layered grammar. Its rounds read postfix forms
and operators in one repetition, so what the rounds make of an operand is said at once: the postfix
forms behind it, then for each row the operators of that row, from the tightest to the loosest. A
round adds to the front of this. Where it is an operator, the operand on its right ends in front of
what the tighter rows and the postfix forms could go on with, so those have nothing to add.

* **`Layered.Chain`**, **`Layered.Expansion`** — what rows, and rounds, make of an operand.
* **`Layered.Chain.operation`** — an operator is added to the row that it stands in.
* **`Expression.leaves_tail`** — what a round adds.
* **`Expression.leaves_upTo`** — what an expression reads is derived. -/

namespace DocGrammar

open Rule Expression

namespace Layered

variable {rows tighter : List (List TokenKind)} {row : List TokenKind}
  {left right node middle : Node} {next operator : Token}
  {tokens behind between rest others : List Token}

/-! ## What rows make of an operand -/

/-- What the operators of some rows make of the operand before them, those of the last row first. -/
def Chain : List (List TokenKind) → Node → List Token → Node → List Token → Prop
  | [], left, tokens, node, rest => node = left ∧ rest = tokens
  | row :: tighter, left, tokens, node, rest => ∃ middle between,
      Chain tighter left tokens middle between ∧ Row row tighter middle between node rest

/-- Without operators nothing is made. -/
theorem chain_refl (other : ∀ row ∈ rows, next.kind ∉ row) :
    Chain rows left (next :: others) left (next :: others) := by
  induction rows with
  | nil => exact ⟨rfl, rfl⟩
  | cons row tighter ih =>
    obtain ⟨here, inside⟩ := List.forall_mem_cons.mp other
    exact ⟨left, next :: others, ih inside, .stop here⟩

theorem Chain.eq_of_stops (chain : Chain rows left tokens node rest)
    (stops : Stops rows left tokens) : node = left ∧ rest = tokens := by
  induction rows generalizing node rest with
  | nil => exact chain
  | cons row tighter ih =>
    obtain ⟨middle, between, inner, outer⟩ := chain
    obtain ⟨rfl, rfl⟩ := ih inner (stops.mono (List.subset_cons_self _ _))
    exact outer.eq_of_stops stops

/-- A unary expression and what the rows make of it. -/
theorem Chain.level (chain : Chain rows left between node rest)
    (start : Unary tokens left between) : Level rows tokens node rest := by
  induction rows generalizing node rest with
  | nil =>
    obtain ⟨rfl, rfl⟩ := chain
    exact .unary start
  | cons row tighter ih =>
    obtain ⟨middle, between, inner, outer⟩ := chain
    exact .row (ih inner) outer

/-- An operator and its right operand are added to the row of the operator. The tighter rows have
nothing to add to the operator, for they went on with its right operand. -/
theorem Chain.operation
    (chain : Chain rows (infixNode operator left right) between node rest)
    (stands : row :: tighter <:+ rows) (member : operator.kind ∈ row)
    (alone : ∀ other ∈ tighter, operator.kind ∉ other)
    (operand : Level tighter (behindFeeds behind) right between) :
    Chain rows left (operator :: behind) node rest := by
  induction rows generalizing node rest with
  | nil => exact absurd (List.suffix_nil.mp stands) (List.cons_ne_nil _ _)
  | cons looser rows ih =>
    obtain ⟨middle, last, inner, outer⟩ := chain
    rcases List.suffix_cons_iff.mp stands with same | deeper
    · cases same
      have ended := operand.stops.of_unnamed (isName_infixNode operator left right)
      obtain ⟨rfl, rfl⟩ := inner.eq_of_stops ended
      exact ⟨left, operator :: behind, chain_refl alone, .operator member operand outer⟩
    · exact ⟨middle, last, ih inner deeper, outer⟩

/-! ## What rounds make of an operand -/

/-- What postfix forms and then the operators of some rows make of the operand before them. -/
def Expansion (rows : List (List TokenKind)) (left : Node) (tokens : List Token) (node : Node)
    (rest : List Token) : Prop :=
  ∃ middle between, Postfix left tokens middle between ∧ Chain rows middle between node rest

/-- Where the expression stops nothing is made. -/
theorem expansion_refl (stops : Stops rows left tokens) :
    Expansion rows left tokens left tokens := by
  refine ⟨left, tokens, .stop (stops.mono (List.nil_subset _)), ?_⟩
  obtain ⟨next, others, rfl, ends⟩ := stops
  exact chain_refl fun row member operator => ends (.inr (.inr ⟨row, member, operator⟩))

/-- A postfix form goes before what is made of it. -/
theorem Expansion.form (expansion : Expansion rows middle between node rest)
    (form : ∀ {node rest}, Postfix middle between node rest → Postfix left tokens node rest) :
    Expansion rows left tokens node rest := by
  obtain ⟨first, last, forms, chain⟩ := expansion
  exact ⟨first, last, form forms, chain⟩

/-- An operator goes before what is made of it. -/
theorem Expansion.operation
    (expansion : Expansion rows (infixNode operator left right) between node rest)
    (stands : row :: tighter <:+ rows) (member : operator.kind ∈ row)
    (alone : ∀ other ∈ tighter, operator.kind ∉ other)
    (operand : Level tighter (behindFeeds behind) right between)
    (infixed : Stops [] left (operator :: behind)) :
    Expansion rows left (operator :: behind) node rest := by
  obtain ⟨middle, last, forms, chain⟩ := expansion
  have ended := operand.stops.of_unnamed (isName_infixNode operator left right)
  obtain ⟨rfl, rfl⟩ := forms.eq_of_stops (ended.mono (List.nil_subset _))
  exact ⟨left, operator :: behind, .stop infixed, chain.operation stands member alone operand⟩

end Layered

open Layered

namespace Expression

/-! ## Arguments and literals -/

section

variable {inner : Nat → Rule Node} {state : RuleState} {β : Type}
  {later : β → List Token → Prop}
  (derives : ∀ power (state : RuleState), EndsInput state.cursor.rest →
    (inner power).Leaves state fun node rest => Level (rowsFrom power) state.cursor.rest node rest)

include derives

/-- The items of a list are expressions. -/
theorem leaves_items {close : TokenKind} (ends : EndsInput state.cursor.rest) :
    (delimited close comma (inner 0)).Leaves state fun nodes rest =>
      Items close state.cursor.rest nodes rest := by
  have none : ∀ (next : Token) (others : List Token), next.kind = close →
      Items close (next :: others) [] (next :: others) ∧
        MoreItems close (next :: others) [] (next :: others) :=
    fun _ _ closes => ⟨.none closes, .none closes⟩
  refine leaves_delimited none ?_ ?_ ends
  · intro state ends opens
    refine (derives 0 state ends).mono fun node between first nodes last more => ?_
    exact .some opens first more
  · intro state ends opens
    refine (leaves_comma ends).bind ends fun _ middle ends' separated => ?_
    obtain ⟨mark, separates, split⟩ := separated
    obtain ⟨rfl, -⟩ := List.cons.inj split
    refine (derives 0 middle ends').mono fun node between next nodes last more => ?_
    rw [split]
    exact .comma separates opens next more

/-- The arguments of a call, with their closing parenthesis. -/
theorem leaves_arguments {next : List Node → Token → Rule β} (ends : EndsInput state.cursor.rest)
    (opens : state.cursor.current.kind = .leftParen)
    (second : ∀ values close middle, EndsInput middle.cursor.rest →
      Items .rightParen state.cursor.after values (close :: middle.cursor.rest) →
      (next (argumentList values) close).Leaves middle later) :
    (do let values ← arguments inner; next values (← previous)).Leaves state later := by
  rw [arguments_bind_previous]
  refine (leaves_advance ends (by simp [opens])).bind ends fun _ inside ends' split => ?_
  have after : inside.cursor.rest = state.cursor.after := (List.cons.inj split.2).2.symm
  refine (leaves_items derives ends').bind ends' fun values last ends'' items => ?_
  obtain ⟨close, others, same, closes⟩ := items.closes
  obtain rfl : last.cursor.current = close := (List.cons.inj same).1
  refine leaves_advance_previous ends'' (by simp [closes]) fun final ends final' => ?_
  rw [after, final'] at items
  exact second values _ final ends items

theorem leaves_array (ends : EndsInput state.cursor.rest)
    (opens : state.cursor.current.kind = .leftBracket) :
    (array inner).Leaves state fun node rest => Atom state.cursor.rest node rest := by
  refine (leaves_advance ends (by simp [opens])).bind ends fun _ inside ends' split => ?_
  obtain ⟨rfl, whole⟩ := split
  refine (leaves_items derives ends').bind ends' fun elements last ends'' items => ?_
  obtain ⟨close, others, same, closes⟩ := items.closes
  obtain rfl : last.cursor.current = close := (List.cons.inj same).1
  refine (leaves_advance ends'' (by simp [closes])).bind ends'' fun _ final _ split' => ?_
  obtain ⟨rfl, behind⟩ := split'
  refine leaves_pure ?_
  rw [behind] at items
  rw [whole]
  exact .array opens items

omit derives in
theorem leaves_propertyKey (ends : EndsInput state.cursor.rest) :
    propertyKey.Leaves state fun node rest => ∃ key kind, keyKind? key.kind = some kind ∧
      node = .leaf kind key ∧ state.cursor.rest = key :: rest := by
  refine leaves_current ?_
  split
  · next known =>
    refine (leaves_leaf .identifier ends (by simp [known])).mono fun node rest leaf => ?_
    exact ⟨state.cursor.current, .identifier, by rw [known]; rfl, leaf⟩
  · next known =>
    refine (leaves_leaf .stringLiteral ends (by simp [known])).mono fun node rest leaf => ?_
    exact ⟨state.cursor.current, .stringLiteral, by rw [known]; rfl, leaf⟩
  · exact leaves_unexpected _ _

theorem leaves_property (ends : EndsInput state.cursor.rest) :
    (property inner).Leaves state fun node rest => Property state.cursor.rest node rest := by
  refine (leaves_propertyKey ends).bind ends fun node parted ends' found => ?_
  obtain ⟨key, kind, keyed, rfl, first⟩ := found
  refine (leaves_expect ends' (by decide) _).bind ends' fun colon given ends'' second => ?_
  refine (derives 0 given ends'').bind ends'' fun value last _ level => leaves_pure ?_
  rw [first, second.2]
  exact .of keyed second.1 level

/-- A property and the line ends behind it. -/
theorem leaves_entry (ends : EndsInput state.cursor.rest) :
    (entry inner).Leaves state fun node rest => ∃ between,
      Property state.cursor.rest node between ∧ rest = behindFeeds between := by
  refine (leaves_property derives ends).bind ends fun node middle ends' found => ?_
  exact (leaves_skipNewlines ends').bind ends' fun _ _ _ behind => leaves_pure ⟨_, found, behind⟩

omit derives in
/-- A comma and the line ends behind it. -/
theorem leaves_entrySeparator (ends : EndsInput state.cursor.rest) :
    entrySeparator.Leaves state fun _ rest => ∃ mark behind, mark.kind = .comma ∧
      state.cursor.rest = mark :: behind ∧ rest = behindFeeds behind := by
  refine (leaves_comma ends).bind ends fun _ middle ends' separated => ?_
  obtain ⟨mark, separates, split⟩ := separated
  exact (leaves_skipNewlines ends').mono fun _ rest behind => ⟨mark, _, separates, split, behind⟩

/-- The properties of an object literal. -/
theorem leaves_properties (ends : EndsInput state.cursor.rest) :
    (delimited .rightBrace entrySeparator (entry inner)).Leaves state fun nodes rest =>
      Properties state.cursor.rest nodes rest := by
  have none : ∀ (next : Token) (others : List Token), next.kind = .rightBrace →
      Properties (next :: others) [] (next :: others) ∧
        MoreProperties (next :: others) [] (next :: others) :=
    fun _ _ closes => ⟨.none closes, .none closes⟩
  refine leaves_delimited none ?_ ?_ ends
  · intro state ends _
    refine (leaves_entry derives ends).mono fun node rest first nodes last more => ?_
    obtain ⟨between, first, rfl⟩ := first
    exact .some first more
  · intro state ends _
    refine (leaves_entrySeparator ends).bind ends fun _ middle ends' separated => ?_
    obtain ⟨mark, behind, separates, split, feeds⟩ := separated
    refine (leaves_entry derives ends').mono fun node rest next nodes last more => ?_
    obtain ⟨between, next, rfl⟩ := next
    rw [feeds] at next
    rw [split]
    exact .comma separates next more

theorem leaves_object (ends : EndsInput state.cursor.rest)
    (opens : state.cursor.current.kind = .leftBrace) :
    (object inner).Leaves state fun node rest => Atom state.cursor.rest node rest := by
  refine (leaves_advance ends (by simp [opens])).bind ends fun _ inside ends' split => ?_
  obtain ⟨rfl, whole⟩ := split
  refine (leaves_skipNewlines ends').bind ends' fun _ first ends₁ feeds => ?_
  refine (leaves_properties derives ends₁).bind ends₁ fun properties last ends₂ found => ?_
  obtain ⟨close, others, same, closes⟩ := found.closes
  obtain rfl : last.cursor.current = close := (List.cons.inj same).1
  refine (leaves_advance ends₂ (by simp [closes])).bind ends₂ fun _ final _ split' => ?_
  obtain ⟨rfl, behind⟩ := split'
  refine leaves_pure ?_
  rw [feeds, behind] at found
  rw [whole]
  exact .object opens found

/-! ## Operands -/

/-- A unary operator and its operand, behind which no postfix form is left to read. -/
theorem leaves_unary (ends : EndsInput state.cursor.rest)
    (marks : state.cursor.current.kind = .bang ∨ state.cursor.current.kind = .minus) :
    (do
      let _ ← advance
      let value ← inner unaryPower
      return (Node.spanning .unaryExpression [value]
        (value.spanFrom state.cursor.current.span)).withText state.cursor.current.value).Leaves
      state fun left rest => ∀ {node last}, Postfix left rest node last →
        Unary state.cursor.rest node last := by
  have known : state.cursor.current.kind ≠ .endOfInput := by
    rcases marks with bang | minus
    · simp [bang]
    · simp [minus]
  refine (leaves_advance ends known).bind ends fun _ inside ends' split => ?_
  refine (derives unaryPower inside ends').bind ends' fun value final _ level => ?_
  refine leaves_pure fun forms => ?_
  cases level with
  | unary operand =>
    -- an operator is no name, so no postfix form goes on behind its operand
    have ended := operand.stops.of_unnamed (isName_signNode state.cursor.current value)
    obtain ⟨rfl, rfl⟩ := forms.eq_of_stops ended
    rw [split.2, split.1]
    exact .sign marks operand

theorem leaves_parentheses (ends : EndsInput state.cursor.rest)
    (opens : state.cursor.current.kind = .leftParen) :
    (do
      let _ ← advance
      let value ← inner 0
      let _ ← expect .rightParen "')'"
      return value : Rule Node).Leaves state fun node rest =>
        Atom state.cursor.rest node rest := by
  refine (leaves_advance ends (by simp [opens])).bind ends fun _ inside ends' split => ?_
  refine (derives 0 inside ends').bind ends' fun value last ends'' level => ?_
  refine (leaves_expect ends'' (by decide) _).bind ends'' fun close final _ found => ?_
  obtain ⟨closes, behind⟩ := found
  refine leaves_pure ?_
  rw [behind] at level
  rw [split.2, split.1]
  exact .parentheses opens level closes

omit derives in
theorem leaves_atom_leaf {kind : NodeKind} (ends : EndsInput state.cursor.rest)
    (known : leafKind? state.cursor.current.kind = some kind) :
    (leaf kind).Leaves state fun node rest => Atom state.cursor.rest node rest := by
  have inner : state.cursor.current.kind ≠ .endOfInput := by
    intro last
    rw [last] at known
    cases known
  refine (leaves_leaf kind ends inner).mono fun node rest leaf => ?_
  obtain ⟨rfl, split⟩ := leaf
  rw [split]
  exact .leaf known

/-- An operand with the postfix forms behind it is a unary expression. -/
theorem leaves_operand (ends : EndsInput state.cursor.rest) :
    (operand inner).Leaves state fun left rest => ∀ {node last}, Postfix left rest node last →
      Unary state.cursor.rest node last := by
  have atom : ∀ {rule : Rule Node}, (rule.Leaves state fun left rest =>
      Atom state.cursor.rest left rest) → rule.Leaves state fun left rest =>
        ∀ {node last}, Postfix left rest node last → Unary state.cursor.rest node last :=
    fun leaves => leaves.mono fun _ _ start _ _ forms => .atom start forms
  refine leaves_current ?_
  split
  · next known => exact leaves_unary derives ends (.inl known)
  · next known => exact leaves_unary derives ends (.inr known)
  · next known => exact atom (leaves_atom_leaf ends (by rw [known]; rfl))
  · next known => exact atom (leaves_atom_leaf ends (by rw [known]; rfl))
  · next known => exact atom (leaves_atom_leaf ends (by rw [known]; rfl))
  · next known => exact atom (leaves_atom_leaf ends (by rw [known]; rfl))
  · next opens => exact atom (leaves_parentheses derives ends opens)
  · next opens => exact atom (leaves_array derives ends opens)
  · next opens => exact atom (leaves_object derives ends opens)
  · exact leaves_unexpected _ _

/-! ## Rounds -/

omit derives in
theorem leaves_identifier (ends : EndsInput state.cursor.rest) :
    identifier.Leaves state fun node rest => ∃ name, name.kind = .identifier ∧
      node = .leaf .identifier name ∧ state.cursor.rest = name :: rest :=
  (leaves_expect ends (by decide) _).bind ends fun name _ _ found =>
    leaves_pure ⟨name, found.1, rfl, found.2⟩

variable {left : Node} {least : Nat} {power : BindingPower}

/-- A property or a method call goes before what is made of it. -/
theorem leaves_member (ends : EndsInput state.cursor.rest)
    (accesses : state.cursor.current.kind = .dot) :
    (member inner left).Leaves state fun next between => ∀ {node rest},
      Postfix next between node rest → Postfix left state.cursor.rest node rest := by
  refine (leaves_advance ends (by simp [accesses])).bind ends fun _ inside ends₁ split => ?_
  refine (leaves_identifier ends₁).bind ends₁ fun _ behind ends₂ found => ?_
  obtain ⟨name, names, rfl, second⟩ := found
  refine leaves_isAt (.ite (fun called => ?_) fun uncalled => ?_)
  · have opens := of_decide_eq_true called
    refine leaves_arguments derives ends₂ opens fun values close final _ items => ?_
    refine leaves_pure fun {node rest} forms => ?_
    rw [split.2, second, split.1]
    exact .method accesses names opens items forms
  · refine leaves_pure fun {node rest} forms => ?_
    rw [split.2, second, split.1]
    exact .property accesses names (fun opens => uncalled (decide_eq_true opens)) forms

omit derives in
/-- The scope of a name goes before what is made of it. -/
theorem leaves_scope (ends : EndsInput state.cursor.rest)
    (scopes : state.cursor.current.kind = .doubleColon) (named : isName left = true) :
    (scope left).Leaves state fun next between => ∀ {node rest},
      Postfix next between node rest → Postfix left state.cursor.rest node rest := by
  refine (leaves_advance ends (by simp [scopes])).bind ends fun _ inside ends' split => ?_
  refine (leaves_identifier ends').bind ends' fun _ behind _ found => ?_
  obtain ⟨name, names, rfl, second⟩ := found
  refine leaves_pure fun {node rest} forms => ?_
  rw [split.2, second, split.1]
  exact .scope scopes named names forms

/-- The call of a name goes before what is made of it. -/
theorem leaves_call (ends : EndsInput state.cursor.rest)
    (opens : state.cursor.current.kind = .leftParen) (named : isName left = true) :
    (call inner left).Leaves state fun next between => ∀ {node rest},
      Postfix next between node rest → Postfix left state.cursor.rest node rest := by
  refine leaves_arguments derives ends opens fun values close final _ items => ?_
  refine leaves_pure fun {node rest} forms => ?_
  exact .call opens named items forms

/-- An operator goes before what is made of it. -/
theorem leaves_operation (ends : EndsInput state.cursor.rest)
    (known : infixPower? state.cursor.current.kind = some power) (binds : least ≤ power.left)
    (infixed : Stops [] left state.cursor.rest) :
    (operation inner power left).Leaves state fun next between => ∀ {node rest},
      Expansion (rowsFrom least) next between node rest →
        Expansion (rowsFrom least) left state.cursor.rest node rest := by
  obtain ⟨row, stands, member, alone⟩ := exists_rowsFrom_suffix known binds
  have inside : state.cursor.current.kind ≠ .endOfInput := by
    intro last
    rw [last] at known
    cases known
  refine (leaves_advance ends inside).bind ends fun operator behind ends₁ split => ?_
  obtain ⟨rfl, whole⟩ := split
  refine (leaves_skipNewlines ends₁).bind ends₁ fun _ first ends₂ feeds => ?_
  refine (derives power.right first ends₂).bind ends₂ fun right last _ operand => leaves_pure ?_
  intro node rest expansion
  rw [feeds] at operand
  rw [whole] at infixed ⊢
  exact expansion.operation stands member alone operand infixed

/-- A round adds to what is made of an operand. -/
theorem leaves_tail (ends : EndsInput state.cursor.rest) :
    (tail inner least left).Leaves state fun outcome rest =>
      outcome.Extends (Expansion (rowsFrom least)) left state.cursor.rest rest := by
  have formed : ∀ {rule : Rule Node}, (rule.Leaves state fun next between => ∀ {node rest},
        Postfix next between node rest → Postfix left state.cursor.rest node rest) →
      (rule >>= fun next => pure (Round.again next) : Rule (Round Node Node)).Leaves state
        fun outcome rest =>
          outcome.Extends (Expansion (rowsFrom least)) left state.cursor.rest rest :=
    fun leaves => leaves.bind ends fun next middle _ forms => leaves_pure
      fun node rest expansion => expansion.form forms
  refine leaves_current (.ite (fun dot => formed (leaves_member derives ends dot)) fun dot => ?_)
  refine .ite (fun scopes => ?_) fun scopes => .ite (fun calls => ?_) fun calls => ?_
  · obtain ⟨scopes, named⟩ := Bool.and_eq_true_iff.mp scopes
    exact formed (leaves_scope ends (of_decide_eq_true scopes) named)
  · obtain ⟨opens, named⟩ := Bool.and_eq_true_iff.mp calls
    exact formed (leaves_call derives ends (of_decide_eq_true opens) named)
  -- neither postfix form goes on, so only an operator can
  have plain : ∀ {rows : List (List TokenKind)},
      (∀ row ∈ rows, state.cursor.current.kind ∉ row) → Stops rows left state.cursor.rest := by
    intro rows other
    refine stops_cons fun goes => ?_
    rcases goes with found | ⟨named, colon | paren⟩ | ⟨row, member, operator⟩
    · exact dot found
    · exact scopes (by simp [colon, named])
    · exact calls (by simp [paren, named])
    · exact other row member operator
  have done : (∀ power, infixPower? state.cursor.current.kind = some power → power.left < least) →
      (pure (Round.done left) : Rule (Round Node Node)).Leaves state fun outcome rest =>
        outcome.Extends (Expansion (rowsFrom least)) left state.cursor.rest rest :=
    fun below => leaves_pure (expansion_refl (plain (not_mem_rowsFrom below)))
  split
  · next none => exact done fun power known => by simp [none] at known
  · next power known =>
    refine .ite (fun below => ?_) fun binds => ?_
    · refine done fun other same => ?_
      rw [known] at same
      exact Option.some.inj same ▸ below
    · have infixed : Stops [] left state.cursor.rest :=
        plain fun row member => absurd member List.not_mem_nil
      exact (leaves_operation derives ends known (Nat.le_of_not_lt binds) infixed).bind ends
        fun next middle _ adds => leaves_pure fun node rest expansion => adds expansion

end

/-! ## Expressions -/

/-- What an expression reads is derived from the rows whose operators it may have. -/
theorem leaves_upTo (levels least : Nat) (state : RuleState) (ends : EndsInput state.cursor.rest) :
    (upTo levels least).Leaves state fun node rest =>
      Level (rowsFrom least) state.cursor.rest node rest := by
  induction levels generalizing least state with
  | zero => exact leaves_tooDeep
  | succ levels ih =>
    have body : ∀ state : RuleState, EndsInput state.cursor.rest →
        (operand (upTo levels) >>= loop (tail (upTo levels) least)).Leaves state
          fun node rest => Level (rowsFrom least) state.cursor.rest node rest := by
      intro state ends
      refine (leaves_operand ih ends).bind ends fun left middle ends' start => ?_
      refine (leaves_loop (fun _ _ ends => leaves_tail ih ends) left ends').mono ?_
      rintro node rest ⟨first, between, forms, chain⟩
      exact chain.level (start forms)
    exact Leaves.nested fun nesting => body { state with nesting := nesting } ends

end Expression

end DocGrammar
