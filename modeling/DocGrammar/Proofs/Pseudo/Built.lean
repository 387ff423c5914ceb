import DocGrammar.Proofs.Types.Built
import DocGrammar.Pseudo.Statement

/-! # The trees of pseudo code

Every rule of expressions and statements fails with an error that its section can be dropped for, or
builds nodes that stand on its tokens and conform to the schema. Calls and property accesses rewrite
the node that they find before them, so the contract of a round says what becomes of the node that
it starts with.

* **`Expression.gives_rule`** — the rule of expressions builds an expression.
* **`Statement.gives_all`** — the rule of a whole fenced block builds statements. -/

namespace DocGrammar

open Rule

/-- A rule builds a node of some kinds. -/
abbrev BuildsPseudo (kinds : List NodeKind) (read : List Token) (node : Node) : Prop :=
  Built .pseudo kinds read [node]

namespace Expression

/-- What the rule of nested expressions builds. -/
abbrev BuildsNested (inner : Nat → Rule Node) : Prop :=
  ∀ power, (inner power).Gives (BuildsPseudo NodeKind.expressions)

variable {inner : Nat → Rule Node} {token : Token} {before : List Token} {left node part : Node}

/-! ## Arguments and literals -/

/-- Arguments end with a closing parenthesis, behind an argument list unless they are empty. -/
def IsArguments (read : List Token) (nodes : List Node) : Prop :=
  ∃ before close, read = before ++ [close] ∧ close.kind = .rightParen ∧
    Built .pseudo [.argumentList] before nodes ∧ nodes.length ≤ 1

theorem gives_arguments (nested : BuildsNested inner) : (arguments inner).Gives IsArguments := by
  refine gives_advance.bind fun _ before _ =>
    (givesUpTo_nodes gives_comma (nested 0)).advance (by decide) ?_
  intro values read close built closes
  refine gives_pure ⟨before ++ read, close, by simp, closes, ?_, ?_⟩
  · split
    · exact .none
    · next filled =>
      have nonempty : values ≠ [] := by simpa using filled
      have holds : NodeKind.argumentList.Holds .pseudo none values :=
        .first rfl (Slot.fill_several rfl nonempty built.admits) rfl rfl
      exact (built.toSound.branch nonempty holds).skipAll before
  · split <;> simp

/-- Arguments may stand in the last slot of a call. -/
theorem fill_arguments {read : List Token} {nodes : List Node}
    (built : Built .pseudo [.argumentList] read nodes) (few : nodes.length ≤ 1) :
    Slot.fill [.optional [.argumentList]] nodes = true := by
  match nodes, built, few with
  | [], _, _ => rfl
  | [values], built, _ => exact Slot.fill_optional rfl built.admits_single rfl

theorem givesFrom_array (nested : BuildsNested inner) (bracket : token.kind = .leftBracket) :
    (array inner).GivesFrom token (BuildsPseudo [.arrayLiteral]) := by
  refine (givesFrom_advance bracket (by decide)).bind ?_
  rintro _ _ ⟨rfl, rfl⟩
  refine (givesUpTo_nodes gives_comma (nested 0)).advance (by decide) ?_
  intro elements read stop built closes
  have holds : NodeKind.arrayLiteral.Holds .pseudo none elements :=
    .first rfl (Slot.fill_any rfl built.admits) rfl rfl
  exact gives_pure (built.toSound.between (TokenKind.isSolid_of_eq bracket rfl)
    (TokenKind.isSolid_of_eq closes rfl) holds)

theorem gives_propertyKey :
    propertyKey.Gives (BuildsPseudo [.identifier, .stringLiteral]) := by
  refine gives_current fun key => ?_
  split
  · next name => exact (givesFrom_leaf name rfl rfl rfl).widen (by decide)
  · next text => exact (givesFrom_leaf text rfl rfl rfl).widen (by decide)
  · exact (gives_unexpected _ _).from key

theorem gives_property (nested : BuildsNested inner) :
    (property inner).Gives (BuildsPseudo [.objectProperty]) := by
  refine gives_propertyKey.bind fun key keyRead builtKey => ?_
  refine (gives_expect (by decide) _).bind ?_
  rintro colon _ ⟨rfl, _⟩
  refine (nested 0).bind fun value read built => gives_pure ?_
  have holds : NodeKind.objectProperty.Holds .pseudo none [key, value] :=
    .first rfl (Slot.fill_one rfl builtKey.admits_single
      (Slot.fill_one rfl built.admits_single rfl))
      rfl rfl
  rw [List.append_nil]
  exact (builtKey.toSound.append (built.toSound.skipAll [colon])).branch (List.cons_ne_nil _ _)
    holds

theorem givesFrom_object (nested : BuildsNested inner) (brace : token.kind = .leftBrace) :
    (object inner).GivesFrom token (BuildsPseudo [.objectLiteral]) := by
  refine (givesFrom_advance brace (by decide)).bind ?_
  rintro _ _ ⟨rfl, rfl⟩
  refine gives_skipNewlines.bind fun _ feeds _ => ?_
  have separates : (do Rule.comma; Rule.skipNewlines : Rule Unit).Gives fun _ _ => True :=
    gives_comma.bind fun _ _ _ => gives_skipNewlines.mono fun _ _ _ => trivial
  have item : (do let found ← property inner; Rule.skipNewlines; return found : Rule Node).Gives
      (BuildsPseudo [.objectProperty]) := by
    refine (gives_property nested).bind fun found read built => ?_
    refine gives_skipNewlines.bind fun _ feeds _ => gives_pure ?_
    exact built.extend _
  refine (givesUpTo_nodes separates item).advance (by decide) ?_
  intro properties read stop built closes
  have holds : NodeKind.objectLiteral.Holds .pseudo none properties :=
    .first rfl (Slot.fill_any rfl built.admits) rfl rfl
  refine gives_pure ?_
  rw [List.append_nil, ← List.append_assoc feeds]
  exact (built.toSound.skipAll feeds).between (TokenKind.isSolid_of_eq brace rfl)
    (TokenKind.isSolid_of_eq closes rfl) holds

/-! ## Operands -/

/-- A literal or a name is an expression. -/
theorem givesFrom_literal {kind : NodeKind} {tokenKind : TokenKind} (known : token.kind = tokenKind)
    (made : kind.isLeafOf tokenKind = true) (texts : kind.carriesText = true)
    (prescribes : kind.contents .pseudo = [[]]) (member : kind ∈ NodeKind.expressions) :
    (Rule.leaf kind).GivesFrom token (BuildsPseudo NodeKind.expressions) :=
  (givesFrom_leaf known made texts prescribes).widen fun _ same =>
    List.mem_singleton.mp same ▸ member

/-- An operator before an expression. -/
theorem givesFrom_unary {kind : TokenKind} (nested : BuildsNested inner)
    (known : token.kind = kind) (solid : kind.isSolid = true) :
    (do
      let _ ← Rule.advance
      let value ← inner unaryPower
      return (Node.spanning .unaryExpression [value] (value.spanFrom token.span)).withText
        token.value : Rule Node).GivesFrom token (BuildsPseudo NodeKind.expressions) := by
  have last : kind ≠ .endOfInput := by
    rintro rfl
    cases solid
  refine (givesFrom_advance known last).bind ?_
  rintro _ _ ⟨rfl, rfl⟩
  refine (nested unaryPower).bind fun value read built => gives_pure ?_
  have holds : NodeKind.unaryExpression.Holds .pseudo (some token.value) [value] :=
    .first rfl (Slot.fill_one rfl built.admits_single rfl) rfl rfl
  rw [List.append_nil]
  exact (built.toSound.spanFrom rfl (TokenKind.isSolid_of_eq known solid) holds).mono (by decide)

theorem gives_operand (nested : BuildsNested inner) :
    (operand inner).Gives (BuildsPseudo NodeKind.expressions) := by
  refine gives_current fun token => ?_
  split
  · next kind => exact givesFrom_unary nested kind rfl
  · next kind => exact givesFrom_unary nested kind rfl
  · next kind => exact givesFrom_literal kind rfl rfl rfl (by decide)
  · next kind => exact givesFrom_literal kind rfl rfl rfl (by decide)
  · next kind => exact givesFrom_literal kind rfl rfl rfl (by decide)
  · next kind => exact givesFrom_literal kind rfl rfl rfl (by decide)
  · next kind =>
    -- the parentheses leave no node behind
    refine (givesFrom_advance kind (by decide)).bind ?_
    rintro _ _ ⟨rfl, rfl⟩
    refine (nested 0).bind fun value read built => ?_
    refine (gives_expect (by decide) _).bind fun _ _ _ => gives_pure ?_
    exact (built.extend _).skipAll [token]
  · next kind => exact (givesFrom_array nested kind).widen (by decide)
  · next kind => exact (givesFrom_object nested kind).widen (by decide)
  · exact (gives_unexpected _ _).from token

/-! ## Postfix forms -/

/-- A node extended by a name: its parts go on with the name. -/
theorem built_extend {kind : NodeKind} {kinds base : List NodeKind} {read more : List Token}
    (built : BuildsPseudo kinds read node) (name : BuildsPseudo [.identifier] more part)
    (branches : kind.isLeaf = false) (texts : kind.carriesText = false)
    (prescribes : kind.contents .pseudo = [[.one base, .several [.identifier]]])
    (based : ∀ other ∈ kinds, other ≠ kind → other ∈ base) (between : List Token) :
    BuildsPseudo [kind] (read ++ (between ++ more)) (extend kind node part) := by
  have field : node.field = none := built.fields node List.mem_cons_self
  unfold extend
  split
  · next same =>
    -- the node is one of the kind already: its parts are taken over
    have whole := built.toSound.children_of (by rw [same]; exact branches)
    have fits := (Node.conforms_iff.mp (built.conform node List.mem_cons_self)).1
    have filled : Slot.fill [.one base, .several [.identifier]] node.children = true := by
      rw [Node.fits, same, Bool.and_eq_true, NodeKind.contents, ← NodeKind.contents] at fits
      simpa [prescribes] using fits.2
    obtain ⟨first, others, children, admits, nonempty, admitted⟩ :=
      (Slot.fill_one_several rfl rfl).mp filled
    have longer :
        Slot.fill [.one base, .several [.identifier]] (node.children ++ [part]) = true := by
      refine (Slot.fill_one_several rfl rfl).mpr ⟨first, others ++ [part], by rw [children]; rfl,
        admits, by simp, ?_⟩
      exact List.forall_mem_append.mpr
        ⟨admitted, List.forall_mem_singleton.mpr name.admits_single⟩
    exact (whole.append (name.toSound.skipAll between)).branch (by simp)
      (.first prescribes longer branches texts.symm)
  · next other =>
    -- the node itself becomes the first part
    have admits : Slot.admits (.one base) node = true :=
      Slot.admits_of_kind (based _ built.kind_mem other) field
    have filled : Slot.fill [.one base, .several [.identifier]] [node, part] = true :=
      Slot.fill_one rfl admits (Slot.fill_several rfl (List.cons_ne_nil _ _) name.admits)
    exact (built.toSound.append (name.toSound.skipAll between)).branch (List.cons_ne_nil _ _)
      (.first prescribes filled branches texts.symm)

/-- What a rule makes of the node before it: an expression on more tokens. -/
def Continues (before : List Token) (more : List Token) (node : Node) : Prop :=
  more ≠ [] ∧ BuildsPseudo NodeKind.expressions (before ++ more) node

theorem givesFrom_member (nested : BuildsNested inner) (dot : token.kind = .dot)
    (receiver : BuildsPseudo NodeKind.expressions before left) :
    (member inner left).GivesFrom token (Continues before) := by
  refine (givesFrom_advance dot (by decide)).bind ?_
  rintro _ _ ⟨rfl, rfl⟩
  refine (gives_identifier .pseudo).bind fun name read builtName => ?_
  refine gives_of_from fun behind => givesFrom_isAt (GivesFrom.ite (fun _ => ?_) fun _ => ?_)
  · refine ((gives_arguments nested).previous ?_ ?_).from behind
    · rintro _ _ ⟨front, close, rfl, _⟩
      simp
    · rintro values front close ⟨front', close', whole, closes, built, few⟩
      -- the token before the current one is the closing parenthesis of the arguments
      obtain ⟨rfl, last⟩ := List.append_inj' whole rfl
      cases last
      have holds : NodeKind.methodCall.Holds .pseudo none (left :: name :: values) :=
        .first rfl (Slot.fill_one rfl receiver.admits_single (Slot.fill_one rfl
          builtName.admits_single (fill_arguments built few))) rfl rfl
      have stands := receiver.toSound.append ((builtName.toSound.append built.toSound).skipAll
        [token])
      refine gives_pure ⟨List.cons_ne_nil _ _, ?_⟩
      rw [List.append_nil, ← List.append_assoc read, ← List.append_assoc [token],
        ← List.append_assoc before]
      exact (stands.spanTo rfl (TokenKind.isSolid_of_eq closes rfl) holds).mono (by decide)
  · refine (gives_pure ⟨List.cons_ne_nil _ _, ?_⟩).from behind
    rw [List.append_nil]
    have whole : BuildsPseudo [.propertyAccess] (before ++ ([token] ++ read))
        (extend .propertyAccess left name) :=
      built_extend receiver builtName rfl rfl rfl (by decide) [token]
    exact whole.mono (by decide)

theorem givesFrom_scope (mark : token.kind = .doubleColon) (isName : isName left = true)
    (outer : BuildsPseudo NodeKind.expressions before left) :
    (scope left).GivesFrom token (Continues before) := by
  have names : BuildsPseudo [.identifier, .scopedIdentifier] before left := by
    refine ⟨outer.toSound, fun node member => ?_, outer.fields⟩
    rw [List.mem_singleton.mp member]
    simpa [Expression.isName] using isName
  refine (givesFrom_advance mark (by decide)).bind ?_
  rintro _ _ ⟨rfl, rfl⟩
  refine (gives_identifier .pseudo).bind fun name read builtName =>
    gives_pure ⟨List.cons_ne_nil _ _, ?_⟩
  rw [List.append_nil]
  have whole : BuildsPseudo [.scopedIdentifier] (before ++ ([token] ++ read))
      (extend .scopedIdentifier left name) :=
    built_extend names builtName rfl rfl rfl (by decide) [token]
  exact whole.mono (by decide)

theorem gives_call (nested : BuildsNested inner) (isName : isName left = true)
    (callee : BuildsPseudo NodeKind.expressions before left) :
    (call inner left).Gives (Continues before) := by
  have field : left.field = none := callee.fields left List.mem_cons_self
  refine (gives_arguments nested).previous ?_ ?_
  · rintro _ _ ⟨front, close, rfl, _⟩
    simp
  · rintro values front close ⟨front', close', whole, closes, built, few⟩
    obtain ⟨rfl, last⟩ := List.append_inj' whole rfl
    cases last
    -- the call spans from its callee to the parenthesis, which is no line end
    have solid := TokenKind.isSolid_of_eq closes rfl
    have stands := callee.toSound.append built.toSound
    refine gives_pure ⟨by simp, ?_⟩
    rw [List.append_nil, ← List.append_assoc]
    split
    · next verb =>
      have named : left.kind = .identifier := by
        simp only [isSystemVerb, Bool.and_eq_true, decide_eq_true_eq] at verb
        exact verb.1
      have holds : NodeKind.systemFunctionCall.Holds .pseudo none (left :: values) :=
        .first rfl (Slot.fill_one rfl (Slot.admits_of_kind (by simp [named]) field)
          (fill_arguments built few)) rfl rfl
      exact (stands.spanTo rfl solid holds).mono (by decide)
    · have holds : NodeKind.functionCall.Holds .pseudo none (left :: values) :=
        .first rfl (Slot.fill_one rfl (Slot.admits_of_kind
          (by simpa [Expression.isName] using isName) field) (fill_arguments built few)) rfl rfl
      exact (stands.spanTo rfl solid holds).mono (by decide)

/-! ## Infix operators -/

theorem built_infixNode {read more : List Token} {right : Node} (operator : Token)
    (first : BuildsPseudo NodeKind.expressions read left)
    (second : BuildsPseudo NodeKind.expressions more right) (between : List Token) :
    BuildsPseudo NodeKind.expressions (read ++ (between ++ more))
      (infixNode operator left right) := by
  have filled : Slot.fill [.one NodeKind.expressions, .one NodeKind.expressions] [left, right] =
      true := Slot.fill_one rfl first.admits_single (Slot.fill_one rfl second.admits_single rfl)
  have stands := first.toSound.append (second.toSound.skipAll between)
  unfold infixNode
  split
  · have holds : NodeKind.pipeExpression.Holds .pseudo none [left, right] :=
      .first rfl filled rfl rfl
    exact (stands.branch (List.cons_ne_nil _ _) holds).mono (by decide)
  · have holds : NodeKind.rangeExpression.Holds .pseudo none [left, right] :=
      .first rfl filled rfl rfl
    exact (stands.branch (List.cons_ne_nil _ _) holds).mono (by decide)
  · have holds : NodeKind.binaryExpression.Holds .pseudo (some operator.value) [left, right] :=
      .first rfl filled rfl rfl
    exact (stands.branch (List.cons_ne_nil _ _) holds).mono (by decide)

theorem givesFrom_operation (nested : BuildsNested inner) (power : BindingPower)
    (known : token.kind ≠ .endOfInput) (first : BuildsPseudo NodeKind.expressions before left) :
    (operation inner power left).GivesFrom token (Continues before) := by
  refine (givesFrom_advance rfl known).bind ?_
  rintro _ _ ⟨rfl, rfl⟩
  refine gives_skipNewlines.bind fun _ feeds _ => ?_
  refine (nested _).bind fun right read built => gives_pure ⟨List.cons_ne_nil _ _, ?_⟩
  have whole := built_infixNode token first built ([token] ++ feeds)
  simpa only [List.append_assoc, List.append_nil] using whole

/-! ## Expressions -/

/-- A round behind an operand leaves an expression behind. -/
theorem gives_tail (nested : BuildsNested inner) (least : Nat)
    (first : BuildsPseudo NodeKind.expressions before left) :
    (tail inner least left).Gives
      (Round.Keeps (BuildsPseudo NodeKind.expressions) (BuildsPseudo NodeKind.expressions)
        before) := by
  -- what extends the operand is a round that goes on; all else is the last one
  have again : ∀ {rule : Rule Node} {token : Token}, rule.GivesFrom token (Continues before) →
      (do return .again (← rule) : Rule (Round Node Node)).GivesFrom token
        (Round.Keeps (BuildsPseudo NodeKind.expressions) (BuildsPseudo NodeKind.expressions)
          before) := by
    intro rule token gives
    refine gives.bind fun node read holds => gives_pure ?_
    rw [List.append_nil]
    exact holds
  have last : ∀ token, (pure (.done left) : Rule (Round Node Node)).GivesFrom token
      (Round.Keeps (BuildsPseudo NodeKind.expressions) (BuildsPseudo NodeKind.expressions)
        before) :=
    (gives_done first).from
  refine gives_current fun token => ?_
  refine GivesFrom.ite (fun dot => again (givesFrom_member nested dot first)) fun _ => ?_
  refine GivesFrom.ite (fun mark => ?_) fun _ => ?_
  · rw [Bool.and_eq_true, decide_eq_true_eq] at mark
    exact again (givesFrom_scope mark.1 mark.2 first)
  refine GivesFrom.ite (fun opening => ?_) fun _ => ?_
  · rw [Bool.and_eq_true] at opening
    exact again ((gives_call nested opening.2 first).from token)
  split
  · exact last token
  · next power powers =>
    have known : token.kind ≠ .endOfInput := by
      intro finish
      rw [finish] at powers
      cases powers
    exact GivesFrom.ite (fun _ => last token)
      fun _ => again (givesFrom_operation nested power known first)

theorem gives_upTo (levels least : Nat) :
    (upTo levels least).Gives (BuildsPseudo NodeKind.expressions) := by
  -- on the room that is left: the rule of operands and operators has one level less
  induction levels generalizing least with
  | zero => exact gives_tooDeep
  | succ levels ih =>
    refine Gives.nested ((gives_operand ih).bind fun first before built => ?_)
    exact gives_loop (fun left before built => gives_tail ih least built) built

/-- The rule of expressions builds an expression. -/
theorem gives_rule : rule.Gives (BuildsPseudo NodeKind.expressions) :=
  gives_room fun levels => gives_upTo levels 0

end Expression

namespace Statement

variable {token : Token} {close : TokenKind} {statement block otherwise : Rule Node}
  {body : Rule (List Node)}

/-! ## Lists of statements -/

/-- A round of a list adds a statement. -/
theorem gives_listRound (gives : statement.Gives (BuildsPseudo NodeKind.statements))
    {found : List Node} {before : List Token}
    (built : Built .pseudo NodeKind.statements before found) :
    (listRound close statement found).Gives
      (Round.Keeps (Built .pseudo NodeKind.statements) (Built .pseudo NodeKind.statements)
        before) := by
  refine gives_current fun token => GivesFrom.ite (fun _ => ?_) fun _ => GivesFrom.ite
    (fun _ => (gives_unexpected_bind _ _ _).from token) fun _ => ?_
  · exact (gives_done built).from token
  · refine (gives.bind fun next read builtNext => ?_).from token
    -- the round goes on with one more statement, whatever separators it skips
    have again : ∀ more, Round.Keeps (Built .pseudo NodeKind.statements)
        (Built .pseudo NodeKind.statements) before (read ++ more)
        (.again (found ++ [next]) : Round (List Node) (List Node)) := by
      intro more
      refine ⟨by simp [builtNext.ne_nil], ?_⟩
      rw [← List.append_assoc]
      exact (built.append builtNext).extend more
    refine gives_current fun behind => GivesFrom.ite (fun _ => ?_) fun _ => ?_
    · refine ((gives_skip (by decide)).bind fun _ more _ => gives_pure ?_).from behind
      rw [List.append_nil]
      exact again more
    · exact GivesFrom.ite (fun _ => (gives_unexpected_bind _ _ _).from behind)
        fun _ => (gives_pure (again [])).from behind

/-- A list of statements stops in front of its closing token. -/
theorem givesUpTo_list (gives : statement.Gives (BuildsPseudo NodeKind.statements)) :
    (list close statement).GivesUpTo close (Built .pseudo NodeKind.statements) := by
  refine (gives_skip (by decide)).bindUpTo fun _ before _ => ?_
  have whole : (loop (listRound close statement) []).GivesUpTo close
      (Built .pseudo NodeKind.statements) := by
    refine givesUpTo_loop (fun found before built => gives_listRound gives built)
      (fun found state => ?_) .none
    rw [listRound, ensures_bind, ensures_current, ensures_ite]
    split
    · next found => exact fun _ _ => found
    · simp only [ensures_bind, ensures_ite, ensures_pure, ensures_current]
      split <;> simp
  intro state ends
  refine (whole state ends).mono ?_ fun _ _ fault => fault
  rintro nodes final ⟨closing, read, moved, built⟩
  exact ⟨closing, read, moved, built.skipAll before⟩

/-! ## Simple statements -/

/-- A name and an expression are what bindings and assignments hold. -/
theorem holds_pair {kind : NodeKind} {read more : List Token} {name value : Node}
    (builtName : BuildsPseudo [.identifier] read name)
    (built : BuildsPseudo NodeKind.expressions more value) (branches : kind.isLeaf = false)
    (texts : kind.carriesText = false)
    (prescribes : kind.contents .pseudo = [[.one [.identifier], .one NodeKind.expressions]]) :
    kind.Holds .pseudo none [name, value] :=
  .first prescribes (Slot.fill_one rfl builtName.admits_single
    (Slot.fill_one rfl built.admits_single rfl)) branches texts.symm

theorem givesFrom_binding (word : token.kind = .letWord) :
    binding.GivesFrom token (BuildsPseudo [.letBinding]) := by
  refine (givesFrom_advance word (by decide)).bind ?_
  rintro _ _ ⟨rfl, rfl⟩
  refine (gives_identifier .pseudo).bind fun name read builtName => ?_
  refine (gives_expect (by decide) _).bind ?_
  rintro mark _ ⟨rfl, _⟩
  refine Expression.gives_rule.bind fun value more built => gives_pure ?_
  rw [List.append_nil]
  exact (builtName.toSound.append (built.toSound.skipAll [mark])).spanFrom rfl
    (TokenKind.isSolid_of_eq word rfl) (holds_pair builtName built rfl rfl rfl)

theorem givesFrom_assignment (name : token.kind = .identifier) :
    assignment.GivesFrom token (BuildsPseudo [.assignment]) := by
  have leaf : (Rule.leaf .identifier).GivesFrom token (BuildsPseudo [.identifier]) :=
    givesFrom_leaf name rfl rfl rfl
  refine leaf.bind fun name read builtName => gives_advance.bind fun _ between _ => ?_
  refine Expression.gives_rule.bind fun value more built => gives_pure ?_
  rw [List.append_nil]
  exact (builtName.toSound.append (built.toSound.skipAll between)).branch (List.cons_ne_nil _ _)
    (holds_pair builtName built rfl rfl rfl)

theorem givesFrom_returning (word : token.kind = .returnWord) :
    returning.GivesFrom token (BuildsPseudo [.returnStatement]) := by
  have solid := TokenKind.isSolid_of_eq word rfl
  refine (givesFrom_advance word (by decide)).bind ?_
  rintro _ _ ⟨rfl, rfl⟩
  refine gives_of_from fun behind => givesFrom_isAtAny (GivesFrom.ite (fun _ => ?_) fun _ => ?_)
  · have alone : NodeKind.returnStatement.Holds .pseudo none [] := .first rfl rfl rfl rfl
    have stands : Stand .pseudo [token] [.spanning .returnStatement [] (some token.span)] :=
      Stand.none.around (framed_singleton solid) rfl
    refine (gives_pure ?_).from behind
    rw [List.append_nil]
    exact (Sound.none : Sound .pseudo [] []).built stands alone
  · refine (Expression.gives_rule.bind fun value more built => gives_pure ?_).from behind
    have holds : NodeKind.returnStatement.Holds .pseudo none [value] :=
      .first rfl (Slot.fill_optional rfl built.admits_single rfl) rfl rfl
    rw [List.append_nil]
    exact built.toSound.spanFrom rfl solid holds

theorem gives_expression : expression.Gives (BuildsPseudo NodeKind.statements) := by
  refine Expression.gives_rule.bind fun value read built => gives_pure ?_
  have field : value.field = none := built.fields value List.mem_cons_self
  rw [List.append_nil]
  split
  · next call =>
    refine ⟨built.toSound, fun node member => ?_, built.fields⟩
    rw [List.mem_singleton.mp member, call]
    decide
  · next other =>
    have member : value.kind ∈ NodeKind.propertyAccess :: NodeKind.plainExpressions :=
      (List.mem_cons.mp built.kind_mem).resolve_left other
    have holds : NodeKind.expressionStatement.Holds .pseudo none [value] :=
      .first rfl (Slot.fill_one rfl (Slot.admits_of_kind member field) rfl) rfl rfl
    exact (built.toSound.branch (List.cons_ne_nil _ _) holds).mono (by decide)

/-! ## Function definitions -/

theorem gives_parameter : parameter.Gives (BuildsPseudo [.parameter]) := by
  refine (gives_identifier .pseudo).bind fun name read builtName => ?_
  refine (gives_expect (by decide) _).bind ?_
  rintro mark _ ⟨rfl, _⟩
  refine (TypeExpr.gives_rule .pseudo).bind fun type more built => gives_pure ?_
  have holds : NodeKind.parameter.Holds .pseudo none [name, type] :=
    .first rfl (Slot.fill_one rfl builtName.admits_single
      (Slot.fill_one rfl built.admits_single rfl)) rfl rfl
  rw [List.append_nil]
  exact (builtName.toSound.append (built.toSound.skipAll [mark])).branch (List.cons_ne_nil _ _)
    holds

/-- A part of a function that may be missing: a node of a kind under a field name. -/
inductive IsPart (kind : NodeKind) (name : String) (read : List Token) : List Node → Prop
  /-- The part is missing. -/
  | missing : IsPart kind name read []
  /-- The part is there. -/
  | there {node : Node} (built : BuildsPseudo [kind] read node) :
      IsPart kind name read [node.withField name]

variable {kind : NodeKind} {name : String} {read : List Token} {nodes : List Node}

theorem IsPart.sound (part : IsPart kind name read nodes) : Sound .pseudo read nodes := by
  cases part with
  | missing => exact .none
  | there built => exact built.toSound.withField name

/-- A part that may be missing fills its slot if another part comes next. -/
theorem IsPart.fill {slots : List Slot} {next : Node} {others : List Node}
    (part : IsPart kind name read nodes) (other : next.field ≠ some name)
    (filled : Slot.fill slots (next :: others) = true) :
    Slot.fill ((Slot.optional [kind]).named name :: slots) (nodes ++ next :: others) = true := by
  cases part with
  | missing => exact Slot.fill_skip rfl (Slot.admits_of_field other) filled
  | there built => exact Slot.fill_optional rfl (built.admits_named name) filled

theorem gives_parameters : parameters.Gives (IsPart .parameterList "parameters") := by
  refine (givesUpTo_nodes gives_comma gives_parameter).advance (by decide) ?_
  intro found read close built closes
  refine gives_pure ?_
  split
  · exact .missing
  · next filled =>
    have nonempty : found ≠ [] := by simpa using filled
    have holds : NodeKind.parameterList.Holds .pseudo none found :=
      .first rfl (Slot.fill_several rfl nonempty built.admits) rfl rfl
    exact .there ((built.toSound.extend _).branch nonempty holds)

theorem gives_returnType : returnType.Gives (IsPart .typeSpecification "return_type") := by
  refine gives_of_from fun token => givesFrom_isAt (GivesFrom.ite (fun _ => ?_) fun _ => ?_)
  · refine (gives_advance.bind fun _ before _ => ?_).from token
    refine (TypeExpr.gives_rule .pseudo).bind fun type read built => gives_pure (.there ?_)
    rw [List.append_nil]
    exact built.skipAll before
  · exact (gives_pure .missing).from token

theorem givesFrom_function (word : token.kind = .fnWord)
    (blocks : block.Gives (BuildsPseudo [.block])) :
    (function block).GivesFrom token (BuildsPseudo [.functionDefinition]) := by
  refine (givesFrom_advance word (by decide)).bind ?_
  rintro _ _ ⟨rfl, rfl⟩
  refine (gives_identifier .pseudo).bind fun name nameRead builtName => ?_
  refine (gives_expect (by decide) _).bind ?_
  rintro opening _ ⟨rfl, _⟩
  refine gives_parameters.bind fun given givenRead isGiven => ?_
  refine gives_returnType.bind fun result resultRead isResult => ?_
  refine blocks.bind fun body bodyRead builtBody => gives_pure ?_
  -- the slots are told apart by field names, so parts that are missing leave theirs empty
  have filled : Slot.fill [(Slot.optional [.parameterList]).named "parameters",
      (Slot.optional [.typeSpecification]).named "return_type", (Slot.one [.block]).named "body"]
      (given ++ (result ++ [body.withField "body"])) = true := by
    have last : Slot.fill [(Slot.one [.block]).named "body"] [body.withField "body"] = true :=
      Slot.fill_one rfl (builtBody.admits_named "body") rfl
    have rest := isResult.fill (by decide : some "body" ≠ some "return_type") last
    cases isResult with
    | missing => exact isGiven.fill (by decide : some "body" ≠ some "parameters") rest
    | there built => exact isGiven.fill (by decide : some "return_type" ≠ some "parameters") rest
  have holds : NodeKind.functionDefinition.Holds .pseudo none
      (name.withField "name" :: (given ++ (result ++ [body.withField "body"]))) :=
    .first rfl (Slot.fill_one rfl (builtName.admits_named "name") filled) rfl rfl
  have stands := (builtName.toSound.withField "name").append ((isGiven.sound.append
    (isResult.sound.append (builtBody.toSound.withField "body"))).skipAll [opening])
  rw [List.append_nil, List.append_assoc given]
  refine stands.spanFrom ?_ (TokenKind.isSolid_of_eq word rfl) holds
  rw [← List.append_assoc given, ← List.append_assoc, List.getLast?_concat]

/-! ## Blocks and conditionals -/

theorem gives_braced (inside : body.GivesUpTo .rightBrace (Built .pseudo NodeKind.statements)) :
    (braced body).Gives (BuildsPseudo [.block]) := by
  refine gives_current fun start => GivesFrom.ite
    (fun _ => (gives_unexpected_bind _ _ _).from start) fun known => ?_
  have brace : start.kind = .leftBrace := Decidable.byContradiction known
  -- inside of the braces a level is entered, and left before the node is built
  have nested : (Rule.nested (do
      let _ ← Rule.advance
      let statements ← body
      return (statements, ← Rule.advance)) : Rule (List Node × Token)).GivesFrom start
        fun read found => ∃ between, read = start :: (between ++ [found.2]) ∧
          found.2.kind = .rightBrace ∧ Built .pseudo NodeKind.statements between found.1 := by
    refine GivesFrom.nested ((givesFrom_advance brace (by decide)).bind ?_)
    rintro _ _ ⟨rfl, rfl⟩
    refine inside.advance (by decide) fun statements read stop built closes => gives_pure ?_
    exact ⟨read, rfl, closes, built⟩
  refine nested.bind ?_
  rintro ⟨statements, stop⟩ _ ⟨between, rfl, closes, built⟩
  have holds : NodeKind.block.Holds .pseudo none statements :=
    .first rfl (Slot.fill_any rfl built.admits) rfl rfl
  refine gives_pure ?_
  rw [List.append_nil]
  exact built.toSound.between (TokenKind.isSolid_of_eq brace rfl)
    (TokenKind.isSolid_of_eq closes rfl) holds

/-- What may stand behind an `else`. -/
abbrev alternatives : List NodeKind := [.block, .ifStatement]

/-- What the rule of conditionals builds where an `if` stands. -/
abbrev BuildsConditional (conditional : Rule Node) : Prop :=
  ∀ token, token.kind = .ifWord → conditional.GivesFrom token (BuildsPseudo [.ifStatement])

/-- The other branch of a conditional, if there is one. -/
inductive IsAlternative (read : List Token) : List Node → Prop
  /-- There is no other branch. -/
  | missing : IsAlternative read []
  /-- The other branch is there. -/
  | there {node : Node} (built : BuildsPseudo alternatives read node) :
      IsAlternative read [node.withField "alternative"]

theorem gives_alternative (blocks : block.Gives (BuildsPseudo [.block]))
    (conditionals : BuildsConditional otherwise) :
    (alternative block otherwise).Gives IsAlternative := by
  have branches : (do
      let _ ← Rule.advance
      let branch ← if ← Rule.isAt .ifWord then otherwise else block
      return [branch.withField "alternative"] : Rule (List Node)).Gives IsAlternative := by
    refine gives_advance.bind fun _ before _ => ?_
    have there : ∀ node read, BuildsPseudo alternatives read node →
        (pure [node.withField "alternative"] : Rule (List Node)).Gives
          fun more nodes => IsAlternative (before ++ (read ++ more)) nodes := by
      intro node read built
      rw [← List.append_nil read] at built
      exact gives_pure (.there (built.skipAll before))
    refine gives_of_from fun token => givesFrom_isAt (GivesFrom.ite (fun found => ?_) fun _ => ?_)
    · refine (conditionals token (of_decide_eq_true found)).bind fun node read built => ?_
      exact there node read (built.mono (by decide))
    · refine (blocks.bind fun node read built => ?_).from token
      exact there node read (built.mono (by decide))
  intro state ends
  rw [alternative, ensures_bind, ensures_get, ensures_bind]
  refine ensures_skip (by decide) ends fun read middle moved _ _ => ?_
  rw [ensures_bind, ensures_isAt, ensures_ite]
  split
  · refine Yields.ensures branches ends moved fun nodes final more path _ isAlternative => ?_
    refine ⟨read ++ more, path, ?_⟩
    cases isAlternative with
    | missing => exact .missing
    | there built => exact .there (built.skipAll read)
  · -- without an `else` the rule goes back to where it started
    rw [ensures_bind, ensures_set, ensures_pure]
    exact ⟨[], .refl state, .missing⟩

theorem buildsConditional (blocks : block.Gives (BuildsPseudo [.block]))
    (conditionals : BuildsConditional otherwise) :
    BuildsConditional (conditional block otherwise) := by
  intro token word
  have solid := TokenKind.isSolid_of_eq word rfl
  refine (givesFrom_advance word (by decide)).bind ?_
  rintro _ _ ⟨rfl, rfl⟩
  refine Expression.gives_rule.bind fun condition conditionRead builtCondition => ?_
  refine blocks.bind fun consequence read built => ?_
  refine (gives_alternative blocks conditionals).bind fun others more isAlternative => ?_
  refine gives_pure ?_
  rw [List.append_nil]
  have first : Slot.admits ((Slot.one NodeKind.expressions).named "condition")
      (condition.withField "condition") = true := builtCondition.admits_named "condition"
  have second : Slot.admits ((Slot.one [.block]).named "consequence")
      (consequence.withField "consequence") = true := built.admits_named "consequence"
  have stands := (builtCondition.toSound.withField "condition").append
    (built.toSound.withField "consequence")
  -- with another branch the node has three parts, else it ends with the consequence
  cases isAlternative with
  | missing =>
    have holds : NodeKind.ifStatement.Holds .pseudo none
        [condition.withField "condition", consequence.withField "consequence"] :=
      .first rfl (Slot.fill_one rfl first (Slot.fill_one rfl second rfl)) rfl rfl
    rw [← List.append_assoc conditionRead]
    exact (stands.extend more).spanFrom rfl solid holds
  | @there node branch =>
    have third : Slot.admits ((Slot.optional alternatives).named "alternative")
        (node.withField "alternative") = true := branch.admits_named "alternative"
    have holds : NodeKind.ifStatement.Holds .pseudo none
        [condition.withField "condition", consequence.withField "consequence",
          node.withField "alternative"] :=
      .first rfl (Slot.fill_one rfl first (Slot.fill_one rfl second
        (Slot.fill_optional rfl third rfl))) rfl rfl
    rw [← List.append_assoc conditionRead]
    exact (stands.append (branch.toSound.withField "alternative")).spanFrom rfl solid holds

/-! ## Statements -/

theorem gives_single (blocks : block.Gives (BuildsPseudo [.block]))
    (conditionals : BuildsConditional otherwise) :
    (single block otherwise).Gives (BuildsPseudo NodeKind.statements) := by
  refine gives_current fun token => ?_
  split
  · next word => exact (givesFrom_function word blocks).widen (by decide)
  · next word => exact (givesFrom_binding word).widen (by decide)
  · next word => exact (conditionals token word).widen (by decide)
  · next word => exact (givesFrom_returning word).widen (by decide)
  · next name =>
    refine givesFrom_peek fun ahead => GivesFrom.ite (fun _ => ?_) fun _ =>
      gives_expression.from token
    exact (givesFrom_assignment name).widen (by decide)
  · exact gives_expression.from token

/-- What the rule of a form builds. -/
def Form.Builds : Form → Rule Node → Prop
  | .block, rule => rule.Gives (BuildsPseudo [.block])
  | .conditional, rule => BuildsConditional rule

/-- Forms build what they are named for, given what they hold. -/
theorem builds_rule (form : Form)
    (inside : body.GivesUpTo .rightBrace (Built .pseudo NodeKind.statements))
    (conditionals : BuildsConditional otherwise) : form.Builds (form.rule body otherwise) := by
  cases form with
  | block => exact gives_braced inside
  | conditional =>
    exact buildsConditional (gives_braced inside) fun token word => (conditionals token word).nested

theorem builds_compound (levels : Nat) (form : Form) : form.Builds (compound levels form) := by
  induction levels generalizing form with
  | zero =>
    refine builds_rule form (fun state ends => ?_) fun token _ => gives_tooDeep.from token
    rw [ensures_tooDeep]
    exact RuleState.faults_refused _ rfl
  | succ levels ih =>
    exact builds_rule form (givesUpTo_list (gives_single (ih .block) (ih .conditional)))
      (ih .conditional)

theorem builds_compoundRule (form : Form) : form.Builds (compoundRule form) := by
  cases form with
  | block => exact gives_room fun levels => builds_compound levels .block
  | conditional =>
    intro token word state ends current
    rw [compoundRule, ensures_bind, ensures_room]
    exact builds_compound _ .conditional token word state ends current

/-- The rule of a whole fenced block builds statements. -/
theorem gives_all : all.Gives (Built .pseudo NodeKind.statements) :=
  (givesUpTo_list (gives_single (builds_compoundRule .block)
    (builds_compoundRule .conditional))).gives

end Statement

end DocGrammar
