import DocGrammar.Proofs.Pseudo.LayeredSound

/-! # The layered grammar is read

Whatever the layered grammar derives, the rule of expressions reads and builds, provided that it has
a level left for every token. A level of rows has no rule of its own: all of them are read by the
rounds of one repetition. So a derivation is read together with the rounds behind it.

* **`Expression.runs_tail_operation`**, … — what each round reads.
* **`Layered.OpensAt`**, **`Layered.GoesOn`** — derivations in front of the rounds behind them.
* **`Layered.Level.opens`** — every derivation is read.
* **`Layered.Level.runs`** — the rule of expressions reads what is derived.
* **`Layered.Level.unique`** — so some tokens are derived in one way only. -/

namespace DocGrammar

open Rule Expression

namespace Expression

open Layered

variable {inner : Nat → Rule Node} {room least : Nat} {left value : Node}
  {tokens behind between rest others : List Token} {token : Token}

/-! ## Rounds -/

/-- Where the expression stops, the last round hands it over. -/
theorem runs_tail_done (stops : Stops (rowsFrom least) left tokens) :
    (tail inner least left).Runs room tokens (.done left) tokens := by
  obtain ⟨next, others, rfl, ends⟩ := stops
  have dot : next.kind ≠ .dot := fun same => ends (.inl same)
  have colon : ¬(next.kind = .doubleColon && isName left) = true := by
    intro both
    obtain ⟨same, named⟩ := Bool.and_eq_true_iff.mp both
    exact ends (.inr (.inl ⟨named, .inl (of_decide_eq_true same)⟩))
  have paren : ¬(next.kind = .leftParen && isName left) = true := by
    intro both
    obtain ⟨same, named⟩ := Bool.and_eq_true_iff.mp both
    exact ends (.inr (.inl ⟨named, .inr (of_decide_eq_true same)⟩))
  refine runs_current ?_
  rw [if_neg dot, if_neg colon, if_neg paren]
  split
  · exact runs_pure _ _
  · next power known =>
    rw [if_pos]
    · exact runs_pure _ _
    -- an operator that binds stands in one of the rows, where the expression cannot stop
    by_contra binds
    obtain ⟨row, stands, member, _⟩ := exists_rowsFrom_suffix known (Nat.le_of_not_lt binds)
    exact ends (.inr (.inr ⟨row, stands.mem List.mem_cons_self, member⟩))

/-- The arguments of a call and their closing parenthesis. -/
theorem runs_arguments {β : Type} {next : List Node → Token → Rule β} {opening close : Token}
    {values : List Node} {result : β}
    (given : (delimited .rightParen comma (inner 0)).Runs room behind values (close :: between))
    (second : (next (argumentList values) close).Runs room between result rest) :
    (do let values ← arguments inner; next values (← previous)).Runs room (opening :: behind)
      result rest := by
  rw [arguments_bind_previous]
  exact (runs_advance _ _).bind (given.bind (runs_advance_previous second))

theorem runs_identifier {name : Token} (names : name.kind = .identifier) (rest : List Token) :
    identifier.Runs room (name :: rest) (.leaf .identifier name) rest :=
  (runs_expect names _ rest).map (Node.leaf .identifier)

/-- The access to a property. -/
theorem runs_tail_property {dot name next : Token} (accesses : dot.kind = .dot)
    (names : name.kind = .identifier) (uncalled : next.kind ≠ .leftParen) :
    (tail inner least left).Runs room (dot :: name :: next :: others)
      (.again (extend .propertyAccess left (.leaf .identifier name))) (next :: others) := by
  refine runs_current ?_
  rw [if_pos accesses]
  refine Runs.map ((runs_advance _ _).bind ((runs_identifier names _).bind (runs_isAt ?_)))
    Round.again
  rw [if_neg (by simpa using uncalled)]
  exact runs_pure _ _

/-- The call of a method. -/
theorem runs_tail_method {dot name opening close : Token} {values : List Node}
    (accesses : dot.kind = .dot) (names : name.kind = .identifier)
    (opens : opening.kind = .leftParen)
    (given : (delimited .rightParen comma (inner 0)).Runs room behind values (close :: rest)) :
    (tail inner least left).Runs room (dot :: name :: opening :: behind)
      (.again (methodNode left (.leaf .identifier name) values close)) rest := by
  refine runs_current ?_
  rw [if_pos accesses]
  refine Runs.map ((runs_advance _ _).bind ((runs_identifier names _).bind (runs_isAt ?_)))
    Round.again
  rw [if_pos (decide_eq_true opens)]
  exact runs_arguments given (runs_pure _ _)

/-- A name in the scope of a name. -/
theorem runs_tail_scope {mark name : Token} (scopes : mark.kind = .doubleColon)
    (named : isName left = true) (names : name.kind = .identifier) :
    (tail inner least left).Runs room (mark :: name :: rest)
      (.again (extend .scopedIdentifier left (.leaf .identifier name))) rest := by
  refine runs_current ?_
  rw [if_neg (by simp [scopes]), if_pos (by simp [scopes, named])]
  exact Runs.map ((runs_advance _ _).bind ((runs_identifier names _).map _)) Round.again

/-- The call of a name. -/
theorem runs_tail_call {opening close : Token} {values : List Node}
    (opens : opening.kind = .leftParen) (named : isName left = true)
    (given : (delimited .rightParen comma (inner 0)).Runs room behind values (close :: rest)) :
    (tail inner least left).Runs room (opening :: behind) (.again (callNode left values close))
      rest := by
  refine runs_current ?_
  rw [if_neg (by simp [opens]), if_neg (by simp [opens]), if_pos (by simp [opens, named])]
  exact Runs.map (runs_arguments given (runs_pure _ _)) Round.again

/-- An operator and its right operand. -/
theorem runs_tail_operation {operator : Token} {power : BindingPower} {right : Node}
    (known : infixPower? operator.kind = some power) (binds : least ≤ power.left)
    (operand : (inner power.right).Runs room (behindFeeds behind) right rest) :
    (tail inner least left).Runs room (operator :: behind)
      (.again (infixNode operator left right)) rest := by
  have other : ∀ kind, infixPower? kind = none → operator.kind ≠ kind := by
    rintro _ none rfl
    rw [none] at known
    cases known
  refine runs_current ?_
  rw [if_neg (other .dot rfl), if_neg (by simp [other .doubleColon rfl]),
    if_neg (by simp [other .leftParen rfl]), known]
  simp only [if_neg (Nat.not_lt.mpr binds)]
  exact Runs.map ((runs_advance _ _).bind ((runs_skipNewlines _).bind (operand.map _))) Round.again

/-! ## Operands -/

/-- A unary operator and its operand. -/
theorem runs_operand_sign {sign : Token} (marks : sign.kind = .bang ∨ sign.kind = .minus)
    (runs : (inner unaryPower).Runs room behind value rest) :
    (operand inner).Runs room (sign :: behind) (signNode sign value) rest := by
  refine runs_current ?_
  rcases marks with bang | minus
  · rw [bang]
    exact (runs_advance _ _).bind (runs.map (signNode sign))
  · rw [minus]
    exact (runs_advance _ _).bind (runs.map (signNode sign))

/-- A token that is an expression by itself. -/
theorem runs_operand_leaf {kind : NodeKind} (known : leafKind? token.kind = some kind) :
    (operand inner).Runs room (token :: rest) (.leaf kind token) rest := by
  refine runs_current ?_
  rcases leafKind?_eq_some known with ⟨same, rfl⟩ | ⟨same, rfl⟩ | ⟨same, rfl⟩ | ⟨same, rfl⟩ <;>
    rw [same] <;> exact runs_leaf _ _ _

/-- An expression between parentheses. -/
theorem runs_operand_parentheses {opening close : Token} (opens : opening.kind = .leftParen)
    (runs : (inner 0).Runs room behind value (close :: rest)) (closes : close.kind = .rightParen) :
    (operand inner).Runs room (opening :: behind) value rest := by
  refine runs_current ?_
  rw [opens]
  exact (runs_advance _ _).bind (runs.bind ((runs_expect closes _ _).bind (runs_pure _ _)))

/-- An array literal. -/
theorem runs_operand_array {opening close : Token} {elements : List Node}
    (opens : opening.kind = .leftBracket)
    (runs : (delimited .rightBracket comma (inner 0)).Runs room behind elements (close :: rest)) :
    (operand inner).Runs room (opening :: behind)
      (.spanning .arrayLiteral elements (some (opening.span.through close.span))) rest := by
  refine runs_current ?_
  rw [opens]
  exact (runs_advance _ _).bind (runs.bind ((runs_advance _ _).bind (runs_pure _ _)))

/-- An object literal. -/
theorem runs_operand_object {opening close : Token} {properties : List Node}
    (opens : opening.kind = .leftBrace)
    (runs : (delimited .rightBrace entrySeparator (entry inner)).Runs room (behindFeeds behind)
      properties (close :: rest)) :
    (operand inner).Runs room (opening :: behind)
      (.spanning .objectLiteral properties (some (opening.span.through close.span))) rest := by
  refine runs_current ?_
  rw [opens]
  exact (runs_advance _ _).bind ((runs_skipNewlines _).bind
    (runs.bind ((runs_advance _ _).bind (runs_pure _ _))))

/-- A property of an object literal. -/
theorem runs_property {key colon : Token} {kind : NodeKind} (keyed : keyKind? key.kind = some kind)
    (parts : colon.kind = .colon) (runs : (inner 0).Runs room behind value rest) :
    (property inner).Runs room (key :: colon :: behind)
      (.branch .objectProperty [.leaf kind key, value]) rest := by
  have first : propertyKey.Runs room (key :: colon :: behind) (.leaf kind key)
      (colon :: behind) := by
    refine runs_current ?_
    rcases keyKind?_eq_some keyed with ⟨same, rfl⟩ | ⟨same, rfl⟩ <;>
      rw [same] <;> exact runs_leaf _ _ _
  exact first.bind ((runs_expect parts _ _).bind (runs.map _))

/-- A property and the line ends behind it. -/
theorem runs_entry (runs : (property inner).Runs room tokens value between) :
    (entry inner).Runs room tokens value (behindFeeds between) :=
  runs.bind ((runs_skipNewlines between).bind (runs_pure value _))

/-- A comma and the line ends behind it. -/
theorem runs_entrySeparator (separates : token.kind = .comma) (behind : List Token) :
    entrySeparator.Runs room (token :: behind) () (behindFeeds behind) :=
  (runs_comma separates behind).bind (runs_skipNewlines behind)

end Expression

namespace Layered

variable {least levels : Nat} {left node : Node} {tokens rest : List Token}

/-! ## Derivations in front of rounds -/

/-- With a level left for every token behind the first one, an operand and some rounds read the
first of some tokens and build a node, and whatever rounds go on with that node may follow. -/
def OpensAt (least : Nat) (tokens : List Token) (node : Node) (rest : List Token) : Prop :=
  ∀ levels, tokens.length ≤ levels + 1 → ∀ result last,
    Goes (tail (upTo levels) least) levels node rest result last →
      (operand (upTo levels) >>= loop (tail (upTo levels) least)).Runs levels tokens result last

/-- Behind an operand some rounds read the first of some tokens and build a node, and whatever
rounds go on with that node may follow. -/
def GoesOn (least : Nat) (left : Node) (tokens : List Token) (node : Node) (rest : List Token) :
    Prop :=
  ∀ levels, tokens.length ≤ levels + 1 → ∀ result last,
    Goes (tail (upTo levels) least) levels node rest result last →
      Goes (tail (upTo levels) least) levels left tokens result last

/-- What opens an expression and stops is a whole one. -/
theorem OpensAt.runs (opens : OpensAt least tokens node rest)
    (stops : Stops (rowsFrom least) node rest) (progress : rest.length < tokens.length)
    (short : tokens.length ≤ levels) : (upTo levels least).Runs levels tokens node rest := by
  cases levels with
  | zero => omega
  | succ levels =>
    exact (opens levels short node rest (goes_done (runs_tail_done stops))).nested

theorem GoesOn.again {next : Node} {between : List Token}
    (goes : GoesOn least next between node rest)
    (round : ∀ levels, tokens.length ≤ levels + 1 →
      (tail (upTo levels) least left).Runs levels tokens (.again next) between)
    (shorter : between.length < tokens.length) : GoesOn least left tokens node rest := by
  intro levels short result last further
  have others := goes levels (shorter.le.trans short) result last further
  exact others.again (round levels short) shorter

/-! ## Derivations are read

By induction on the derivations. One repetition reads a whole expression, so `least` is the same for
all of its rows: the rounds of a tighter row are followed by those of the looser ones. A right
operand, in contrast, is an expression of its own, which stops in front of the row that it is in. -/

mutual

/-- A derivation opens an expression that has its rows among those whose operators it may have. -/
theorem Level.opens : ∀ {rows : List (List TokenKind)} {tokens : List Token} {node : Node}
    {rest : List Token}, Level rows tokens node rest → ∀ least index : Nat,
      operatorRows.drop index = rows → least ≤ 2 * index + 1 → OpensAt least tokens node rest
  | _, _, _, _, .unary only, _, _, _, _ => only.opens
  | _, _, _, _, .row operand others, least, index, rows, binds => by
    have tighter := congrArg List.tail rows
    rw [List.tail_drop] at tighter
    have opens := operand.opens least (index + 1) tighter (by omega)
    have goes := others.goes least index rows binds
    intro levels short result last further
    refine opens levels short result last (goes levels ?_ result last further)
    exact operand.length_lt.le.trans short

/-- The operators of a row are read one round after the other. -/
theorem Row.goes : ∀ {row : List TokenKind} {tighter : List (List TokenKind)} {left : Node}
    {tokens : List Token} {node : Node} {rest : List Token},
    Row row tighter left tokens node rest → ∀ least index : Nat,
      operatorRows.drop index = row :: tighter → least ≤ 2 * index + 1 →
        GoesOn least left tokens node rest
  | _, _, _, _, _, _, .stop _, _, _, _, _ => fun _ _ _ _ further => further
  | _, _, _, _, _, _, .operator member operand others, least, index, rows, binds => by
    obtain ⟨known, tighter⟩ := infixPower?_of_mem rows member
    have opens := operand.opens (2 * index + 2) _ tighter.symm (by omega)
    refine (others.goes least index rows binds).again (fun levels short => ?_) ?_
    · refine runs_tail_operation known binds (opens.runs ?_ operand.length_lt ?_)
      · rw [← tighter]
        exact operand.stops
      · exact (length_behindFeeds_le _).trans (Nat.le_of_succ_le_succ short)
    · exact Nat.lt_succ_of_lt (operand.length_lt.trans_le (length_behindFeeds_le _))

/-- A unary expression opens any expression. -/
theorem Unary.opens : ∀ {tokens : List Token} {node : Node} {rest : List Token},
    Unary tokens node rest → ∀ {least : Nat}, OpensAt least tokens node rest
  | _, _, _, .sign marks operand, least => by
    have opens : OpensAt unaryPower _ _ _ := operand.opens
    intro levels short result last further
    refine (runs_operand_sign marks (opens.runs operand.stops operand.length_lt ?_)).bind
      further.runs
    exact Nat.le_of_succ_le_succ short
  | _, _, _, .atom start others, least => by
    have goes : GoesOn least _ _ _ _ := others.goes
    intro levels short result last further
    refine (start.runs short).bind (Goes.runs (goes levels ?_ result last further))
    exact start.length_lt.le.trans short

/-- Postfix forms are read whatever operators may follow. -/
theorem Postfix.goes : ∀ {left : Node} {tokens : List Token} {node : Node} {rest : List Token},
    Postfix left tokens node rest → ∀ {least : Nat}, GoesOn least left tokens node rest
  | _, _, _, _, .stop _, _ => fun _ _ _ _ further => further
  | _, _, _, _, .property accesses names uncalled others, _ =>
    others.goes.again (fun _ _ => runs_tail_property accesses names uncalled)
      (Nat.lt_add_of_pos_right Nat.two_pos)
  | _, _, _, _, .method accesses names opens given others, _ => by
    refine others.goes.again (fun levels short => ?_) ?_
    · refine runs_tail_method accesses names opens (given.goes ?_).runs
      -- the arguments are shorter than the call, so the levels that it has are enough
      simp only [List.length_cons] at short
      omega
    · have inner := given.length_le
      simp only [List.length_cons] at inner ⊢
      omega
  | _, _, _, _, .scope scopes named names others, _ =>
    others.goes.again (fun _ _ => runs_tail_scope scopes named names)
      (Nat.lt_add_of_pos_right Nat.two_pos)
  | _, _, _, _, .call opens named given others, _ => by
    refine others.goes.again (fun levels short => ?_) ?_
    · exact runs_tail_call opens named (given.goes (Nat.le_of_succ_le_succ short)).runs
    · exact Nat.lt_succ_of_le (Nat.le_of_succ_le given.length_le)

/-- An atom is read as an operand. -/
theorem Atom.runs : ∀ {tokens : List Token} {node : Node} {rest : List Token},
    Atom tokens node rest → ∀ {levels : Nat}, tokens.length ≤ levels + 1 →
      (operand (upTo levels)).Runs levels tokens node rest
  | _, _, _, .leaf known, _, _ => runs_operand_leaf known
  | _, _, _, .parentheses opens inner closes, _, short => by
    have opened := inner.opens 0 0 rfl (Nat.zero_le _)
    exact runs_operand_parentheses opens
      (opened.runs inner.stops inner.length_lt (Nat.le_of_succ_le_succ short)) closes
  | _, _, _, .array opens inner, _, short =>
    runs_operand_array opens (inner.goes (Nat.le_of_succ_le_succ short)).runs
  | _, _, _, .object opens inner, _, short =>
    runs_operand_object opens
      (inner.goes ((length_behindFeeds_le _).trans (Nat.le_of_succ_le_succ short))).runs

theorem Items.goes : ∀ {close : TokenKind} {tokens : List Token} {nodes : List Node}
    {rest : List Token}, Items close tokens nodes rest → ∀ {levels : Nat}, tokens.length ≤ levels →
      Goes (delimitedRound close comma (upTo levels 0)) levels [] tokens nodes rest
  | _, _, _, _, .none closes, _, _ => goes_delimited_done closes
  | _, _, _, _, .some opens first more, levels, short => by
    have opened := first.opens 0 0 rfl (Nat.zero_le _)
    have item := opened.runs first.stops first.length_lt short
    refine Goes.again ?_ (runs_delimitedRound_first opens item) first.length_lt
    exact more.goes (first.length_lt.le.trans short) (List.cons_ne_nil _ [])

theorem MoreItems.goes : ∀ {close : TokenKind} {tokens : List Token} {nodes : List Node}
    {rest : List Token}, MoreItems close tokens nodes rest → ∀ {levels : Nat},
      tokens.length ≤ levels → ∀ {items : List Node}, items ≠ [] →
        Goes (delimitedRound close comma (upTo levels 0)) levels items tokens (items ++ nodes) rest
  | _, _, _, _, .none closes, _, _, items, _ => by
    rw [List.append_nil]
    exact goes_delimited_done closes
  | _, _, _, _, .comma separates opens next more, levels, short, items, nonempty => by
    have shorter := Nat.le_of_succ_le short
    have opened := next.opens 0 0 rfl (Nat.zero_le _)
    have item := opened.runs next.stops next.length_lt shorter
    have round := runs_delimitedRound_more nonempty opens ((runs_comma separates _).bind item)
    rw [List.append_cons]
    refine Goes.again ?_ round (Nat.lt_succ_of_lt next.length_lt)
    exact more.goes (next.length_lt.le.trans shorter) (List.concat_ne_nil _ _)

theorem Properties.goes : ∀ {tokens : List Token} {nodes : List Node} {rest : List Token},
    Properties tokens nodes rest → ∀ {levels : Nat}, tokens.length ≤ levels →
      Goes (delimitedRound .rightBrace entrySeparator (entry (upTo levels))) levels [] tokens nodes
        rest
  | _, _, _, .none closes, _, _ => goes_delimited_done closes
  | _, _, _, .some first more, levels, short => by
    have item := runs_entry (first.runs short)
    have feeds := (length_behindFeeds_le _).trans_lt first.length_lt
    obtain ⟨key, others, rfl, opens⟩ := first.exists_key
    refine Goes.again ?_ (runs_delimitedRound_first opens item) feeds
    exact more.goes (feeds.le.trans short) (List.cons_ne_nil _ [])

theorem MoreProperties.goes : ∀ {tokens : List Token} {nodes : List Node} {rest : List Token},
    MoreProperties tokens nodes rest → ∀ {levels : Nat}, tokens.length ≤ levels →
      ∀ {items : List Node}, items ≠ [] →
        Goes (delimitedRound .rightBrace entrySeparator (entry (upTo levels))) levels items tokens
          (items ++ nodes) rest
  | _, _, _, .none closes, _, _, items, _ => by
    rw [List.append_nil]
    exact goes_delimited_done closes
  | _, _, _, .comma separates next more, levels, short, items, nonempty => by
    have shorter := (length_behindFeeds_le _).trans (Nat.le_of_succ_le short)
    have feeds := (length_behindFeeds_le _).trans_lt
      (next.length_lt.trans_le (length_behindFeeds_le _))
    have item := runs_entry (next.runs shorter)
    have opens : TokenKind.comma ≠ .rightBrace := by decide
    rw [List.append_cons]
    refine Goes.again ?_ (runs_delimitedRound_more nonempty (separates ▸ opens)
      ((runs_entrySeparator separates _).bind item)) (Nat.lt_succ_of_lt feeds)
    exact more.goes (feeds.le.trans (Nat.le_of_succ_le short)) (List.concat_ne_nil _ _)

theorem Property.runs : ∀ {tokens : List Token} {node : Node} {rest : List Token},
    Property tokens node rest → ∀ {levels : Nat}, tokens.length ≤ levels →
      (property (upTo levels)).Runs levels tokens node rest
  | _, _, _, .of keyed parts given, _, short => by
    have opened := given.opens 0 0 rfl (Nat.zero_le _)
    exact runs_property keyed parts (opened.runs given.stops given.length_lt
      (Nat.le_of_succ_le (Nat.le_of_succ_le short)))

end

/-- With a level left for every token the rule of expressions reads what is derived. -/
theorem Level.runs (level : Level (rowsFrom least) tokens node rest)
    (short : tokens.length ≤ levels) : (upTo levels least).Runs levels tokens node rest :=
  (level.opens least (least / 2) rfl (by omega)).runs level.stops level.length_lt short

/-- Some tokens are derived in one way only. -/
theorem Level.unique {other : Node} {rest' : List Token}
    (first : Level (rowsFrom least) tokens node rest)
    (second : Level (rowsFrom least) tokens other rest') : node = other ∧ rest = rest' := by
  have nonempty : ∀ {node : Node} {rest : List Token}, Stops (rowsFrom least) node rest →
      rest ≠ [] := by
    rintro _ _ ⟨next, others, rfl, _⟩
    exact List.cons_ne_nil _ _
  exact (first.runs le_rfl).unique (second.runs le_rfl) (nonempty first.stops)
    (nonempty second.stops)

end Layered

end DocGrammar
