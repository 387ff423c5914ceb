import DocGrammar.Proofs.Types.Course
import DocGrammar.Pseudo.Statement

/-! # The course of reading statements

Every rule of expressions and statements runs in steps, given that the rules of what is nested in it
do. A level of nesting is entered for each expression and each block, and for a conditional behind
an `else`. The lookahead for an `else` comes back to a state of the same nesting.

* **`Expression.IsRule`**, **`Statement.IsRule`** — the rules of expressions and of statements.
* **`Expression.IsRule.steps`**, **`Statement.IsRule.steps`** — all of them run in steps. -/

namespace DocGrammar

open Rule

variable {origin : RuleState}

namespace Expression

/-! ## Arguments and literals -/

section

variable {inner : Nat → Rule Node} (nested : ∀ power, Steps origin (inner power))

include nested

theorem steps_arguments : Steps origin (arguments inner) :=
  steps_advance.bind fun _ => (steps_delimited steps_comma (nested 0)).bind fun _ =>
    steps_advance.bind fun _ => steps_pure _

theorem steps_array : Steps origin (array inner) :=
  steps_advance.bind fun _ => (steps_delimited steps_comma (nested 0)).bind fun _ =>
    steps_advance.bind fun _ => steps_pure _

omit nested in
theorem steps_propertyKey : Steps origin propertyKey := by
  refine steps_current.bind fun key => ?_
  split
  · exact steps_leaf _
  · exact steps_leaf _
  · exact steps_unexpected _ _

theorem steps_property : Steps origin (property inner) :=
  steps_propertyKey.bind fun _ => (steps_expect _ _).bind fun _ =>
    (nested 0).bind fun _ => steps_pure _

theorem steps_object : Steps origin (object inner) := by
  have separates : Steps origin (do comma; skipNewlines) :=
    steps_comma.bind fun _ => steps_skipNewlines
  have each : Steps origin (do let found ← property inner; skipNewlines; return found) :=
    (steps_property nested).bind fun _ => steps_skipNewlines.bind fun _ => steps_pure _
  refine steps_advance.bind fun _ => steps_skipNewlines.bind fun _ => ?_
  exact (steps_delimited separates each).bind fun _ => steps_advance.bind fun _ => steps_pure _

/-! ## Operands and what follows them -/

theorem steps_operand : Steps origin (operand inner) := by
  refine steps_current.bind fun token => ?_
  split
  · exact steps_advance.bind fun _ => (nested unaryPower).bind fun _ => steps_pure _
  · exact steps_advance.bind fun _ => (nested unaryPower).bind fun _ => steps_pure _
  · exact steps_leaf _
  · exact steps_leaf _
  · exact steps_leaf _
  · exact steps_leaf _
  · exact steps_advance.bind fun _ => (nested 0).bind fun _ => (steps_expect _ _).bind fun _ =>
      steps_pure _
  · exact steps_array nested
  · exact steps_object nested
  · exact steps_unexpected _ _

theorem steps_member (receiver : Node) : Steps origin (member inner receiver) := by
  refine steps_advance.bind fun _ => steps_identifier.bind fun _ => (steps_isAt _).bind fun _ => ?_
  exact .ite (fun _ => (steps_arguments nested).bind fun _ => steps_previous.bind fun _ =>
    steps_pure _) fun _ => steps_pure _

omit nested in
theorem steps_scope (outer : Node) : Steps origin (scope outer) :=
  steps_advance.bind fun _ => steps_identifier.bind fun _ => steps_pure _

theorem steps_call (callee : Node) : Steps origin (call inner callee) :=
  (steps_arguments nested).bind fun _ => steps_previous.bind fun _ => steps_pure _

theorem steps_operation (power : BindingPower) (left : Node) :
    Steps origin (operation inner power left) :=
  steps_advance.bind fun _ => steps_skipNewlines.bind fun _ => (nested power.right).bind fun _ =>
    steps_pure _

theorem steps_tail (least : Nat) (left : Node) : Steps origin (tail inner least left) := by
  refine steps_current.bind fun token => ?_
  refine .ite (fun _ => (steps_member nested left).bind fun _ => steps_pure _) fun _ => ?_
  refine .ite (fun _ => (steps_scope left).bind fun _ => steps_pure _) fun _ => ?_
  refine .ite (fun _ => (steps_call nested left).bind fun _ => steps_pure _) fun _ => ?_
  split
  · exact steps_pure _
  · next power _ =>
    exact .ite (fun _ => steps_pure _) fun _ =>
      (steps_operation nested power left).bind fun _ => steps_pure _

end

/-! ## Expressions -/

theorem steps_upTo {levels : Nat} (room : origin.nesting.room = levels) (least : Nat) :
    Steps origin (upTo levels least) := by
  induction levels generalizing origin least with
  | zero => exact steps_tooDeep (origin.nesting.enter?_eq_none_iff.mpr room)
  | succ levels ih =>
    refine steps_nested fun deeper enters => ?_
    have left : deeper.room = levels :=
      Nat.succ.inj ((Nesting.room_of_enter? enters).symm.trans room)
    exact (steps_operand (ih left)).bind fun value => steps_loop (steps_tail (ih left) least) value

/-- An expression whose operators have at least the power `least`. -/
def atLeast (least : Nat) : Rule Node := do
  upTo (← room) least

theorem steps_atLeast (least : Nat) : Steps origin (atLeast least) :=
  steps_room (steps_upTo rfl least)

theorem steps_rule : Steps origin rule := steps_atLeast 0

/-- The rules of expressions, in which expressions are nested. -/
inductive IsRule : {α : Type} → Rule α → Prop
  | atLeast (least : Nat) : IsRule (atLeast least)
  | operand : IsRule (operand atLeast)
  | member (receiver : Node) : IsRule (member atLeast receiver)
  | scope (outer : Node) : IsRule (scope outer)
  | call (callee : Node) : IsRule (call atLeast callee)
  | operation (power : BindingPower) (left : Node) : IsRule (operation atLeast power left)
  | arguments : IsRule (arguments atLeast)
  | array : IsRule (array atLeast)
  | object : IsRule (object atLeast)
  | property : IsRule (property atLeast)

/-- Every rule of expressions runs in steps. -/
theorem IsRule.steps {α : Type} {part : Rule α} (isRule : IsRule part) : Steps origin part := by
  cases isRule with
  | atLeast least => exact steps_atLeast least
  | operand => exact steps_operand steps_atLeast
  | member receiver => exact steps_member steps_atLeast receiver
  | scope outer => exact steps_scope outer
  | call callee => exact steps_call steps_atLeast callee
  | operation power left => exact steps_operation steps_atLeast power left
  | arguments => exact steps_arguments steps_atLeast
  | array => exact steps_array steps_atLeast
  | object => exact steps_object steps_atLeast
  | property => exact steps_property steps_atLeast

end Expression

namespace Statement

/-! ## Lists of statements -/

theorem steps_listRound {statement : Rule Node} (each : Steps origin statement)
    (close : TokenKind) (found : List Node) : Steps origin (listRound close statement found) := by
  refine steps_current.bind fun token => .ite (fun _ => steps_pure _) fun _ => ?_
  refine .ite (fun _ => steps_unexpected_bind _ _) fun _ => each.bind fun _ => ?_
  refine steps_current.bind fun behind => .ite (fun _ => ?_) fun _ => .ite (fun _ => ?_) fun _ => ?_
  · exact (steps_skip _).bind fun _ => steps_pure _
  · exact steps_unexpected_bind _ _
  · exact steps_pure _

theorem steps_list {statement : Rule Node} (each : Steps origin statement) (close : TokenKind) :
    Steps origin (list close statement) :=
  (steps_skip _).bind fun _ => steps_loop (steps_listRound each close) []

/-! ## Simple statements -/

theorem steps_binding : Steps origin binding :=
  steps_advance.bind fun _ => steps_identifier.bind fun _ => (steps_expect _ _).bind fun _ =>
    Expression.steps_rule.bind fun _ => steps_pure _

theorem steps_assignment : Steps origin assignment :=
  (steps_leaf _).bind fun _ => steps_advance.bind fun _ => Expression.steps_rule.bind fun _ =>
    steps_pure _

theorem steps_returning : Steps origin returning := by
  refine steps_advance.bind fun _ => (steps_isAtAny _).bind fun _ => .ite (fun _ => ?_) fun _ => ?_
  · exact steps_pure _
  · exact Expression.steps_rule.bind fun _ => steps_pure _

theorem steps_expression : Steps origin expression :=
  Expression.steps_rule.bind fun _ => steps_pure _

/-! ## Function definitions -/

theorem steps_parameter : Steps origin parameter :=
  steps_identifier.bind fun _ => (steps_expect _ _).bind fun _ =>
    TypeExpr.steps_rule.bind fun _ => steps_pure _

theorem steps_parameters : Steps origin parameters :=
  (steps_delimited steps_comma steps_parameter).bind fun _ => steps_advance.bind fun _ =>
    steps_pure _

theorem steps_returnType : Steps origin returnType := by
  refine (steps_isAt _).bind fun _ => .ite (fun _ => ?_) fun _ => steps_pure _
  exact steps_advance.bind fun _ => TypeExpr.steps_rule.bind fun _ => steps_pure _

variable {block otherwise : Rule Node}

theorem steps_function (body : Steps origin block) : Steps origin (function block) := by
  refine steps_advance.bind fun _ => steps_identifier.bind fun _ => (steps_expect _ _).bind fun _ =>
    steps_parameters.bind fun _ => steps_returnType.bind fun _ => ?_
  exact body.bind fun _ => steps_pure _

/-! ## Blocks and conditionals -/

/-- The braces of a block stand on the two sides of a level of nesting. -/
theorem steps_braced {body : Rule (List Node)}
    (inner : ∀ deeper, origin.nesting.enter? = some deeper →
      Steps { origin with nesting := deeper } body) : Steps origin (braced body) := by
  refine steps_current.bind fun start => .ite (fun _ => steps_unexpected_bind _ _) fun _ => ?_
  refine (steps_nested fun deeper enters => ?_).bind fun _ => steps_pure _
  exact steps_advance.bind fun _ => (inner deeper enters).bind fun _ => steps_advance.bind fun _ =>
    steps_pure _

theorem steps_alternative (one : Steps origin block) (two : Steps origin otherwise) :
    Steps origin (alternative block otherwise) := by
  refine steps_get fun start beside => steps_skipNewlines.bind fun _ => ?_
  refine (steps_isAt _).bind fun _ => .ite (fun _ => ?_) fun _ => ?_
  · refine steps_advance.bind fun _ => (steps_isAt _).bind fun _ => ?_
    exact .ite (fun _ => two.bind fun _ => steps_pure _) fun _ => one.bind fun _ => steps_pure _
  · -- Without an `else` the line ends are given back.
    exact (steps_set beside).bind fun _ => steps_pure _

theorem steps_conditional (one : Steps origin block) (two : Steps origin otherwise) :
    Steps origin (conditional block otherwise) :=
  steps_advance.bind fun _ => Expression.steps_rule.bind fun _ => one.bind fun _ =>
    (steps_alternative one two).bind fun _ => steps_pure _

theorem steps_single (one : Steps origin block) (two : Steps origin otherwise) :
    Steps origin (single block otherwise) := by
  refine steps_current.bind fun token => ?_
  split
  · exact steps_function one
  · exact steps_binding
  · exact two
  · exact steps_returning
  · exact (steps_peek 1).bind fun _ => .ite (fun _ => steps_assignment) fun _ => steps_expression
  · exact steps_expression

/-- A form enters a level around the statements of a block, and another around a conditional behind
an `else`. -/
theorem steps_form (form : Form) {body : Rule (List Node)}
    (inner : ∀ deeper, origin.nesting.enter? = some deeper →
      Steps { origin with nesting := deeper } body ∧
      Steps { origin with nesting := deeper } otherwise) :
    Steps origin (form.rule body otherwise) := by
  have block : Steps origin (braced body) :=
    steps_braced fun deeper enters => (inner deeper enters).1
  cases form with
  | block => exact block
  | conditional =>
    exact steps_conditional block (steps_nested fun deeper enters => (inner deeper enters).2)

theorem steps_compound {levels : Nat} (room : origin.nesting.room = levels) (form : Form) :
    Steps origin (compound levels form) := by
  induction levels generalizing origin form with
  | zero =>
    -- Without room no level is entered, so that nothing is nested.
    have full := origin.nesting.enter?_eq_none_iff.mpr room
    refine steps_form form fun deeper enters => ?_
    rw [full] at enters
    cases enters
  | succ levels ih =>
    refine steps_form form fun deeper enters => ?_
    have left : deeper.room = levels :=
      Nat.succ.inj ((Nesting.room_of_enter? enters).symm.trans room)
    exact ⟨steps_list (steps_single (ih left .block) (ih left .conditional)) _,
      ih left .conditional⟩

theorem steps_compoundRule (form : Form) : Steps origin (compoundRule form) :=
  steps_room (steps_compound rfl form)

/-- A statement. -/
def rule : Rule Node := single (compoundRule .block) (compoundRule .conditional)

theorem steps_rule : Steps origin rule :=
  steps_single (steps_compoundRule _) (steps_compoundRule _)

/-- The rules of statements, in which blocks and conditionals are nested. -/
inductive IsRule : {α : Type} → Rule α → Prop
  | all : IsRule all
  | list (close : TokenKind) : IsRule (list close rule)
  | rule : IsRule rule
  | form (form : Form) : IsRule (compoundRule form)
  | function : IsRule (function (compoundRule .block))
  | parameters : IsRule parameters
  | parameter : IsRule parameter
  | returnType : IsRule returnType
  | alternative : IsRule (alternative (compoundRule .block) (nested (compoundRule .conditional)))
  | binding : IsRule binding
  | assignment : IsRule assignment
  | returning : IsRule returning
  | expression : IsRule expression

/-- Every rule of statements runs in steps. -/
theorem IsRule.steps {α : Type} {part : Rule α} (isRule : IsRule part) : Steps origin part := by
  cases isRule with
  | all => exact steps_list steps_rule _
  | list close => exact steps_list steps_rule close
  | rule => exact steps_rule
  | form form => exact steps_compoundRule form
  | function => exact steps_function (steps_compoundRule _)
  | parameters => exact steps_parameters
  | parameter => exact steps_parameter
  | returnType => exact steps_returnType
  | alternative =>
    exact steps_alternative (steps_compoundRule _) (steps_nested fun _ _ => steps_compoundRule _)
  | binding => exact steps_binding
  | assignment => exact steps_assignment
  | returning => exact steps_returning
  | expression => exact steps_expression

end Statement

end DocGrammar
