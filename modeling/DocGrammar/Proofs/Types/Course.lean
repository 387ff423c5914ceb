import DocGrammar.Proofs.Rules.Course
import DocGrammar.Rule.TypeExpr

/-! # The course of reading a type

Every rule of types runs in steps, given that the rule of nested types does. A type inside another
one has one level fewer left, so that the levels of a rule are used up just where the last level is
entered.

* **`TypeExpr.IsRule`** — the rules of types.
* **`TypeExpr.steps_rule`** — a type is read in steps.
* **`TypeExpr.IsRule.steps`** — so is every part of it. -/

namespace DocGrammar

namespace TypeExpr

open Rule

variable {origin : RuleState} {inner : Rule Node}

/-! ## Atoms -/

theorem steps_malformed_bind {α β : Type} {next : α → Rule β} (token : Token)
    (wanted : List String) : Steps origin (malformed token wanted >>= next) :=
  steps_refuse_bind (by simp [Cause.kind]) _

section

variable (nested : Steps origin inner)

include nested

theorem steps_property : Steps origin (property inner) := by
  refine steps_current.bind fun name => .ite (fun _ => steps_malformed_bind _ _) fun _ => ?_
  refine steps_advance.bind fun _ => steps_current.bind fun mark => ?_
  refine .ite (fun _ => steps_malformed_bind _ _) fun _ => steps_advance.bind fun _ => ?_
  exact nested.bind fun _ => steps_pure _

theorem steps_propertyRound (found : List Node) : Steps origin (propertyRound inner found) := by
  have more : Steps origin
      (do let next ← property inner; skipNewlines; return Round.again (found ++ [next]) :
        Rule (Round (List Node) (List Node))) :=
    (steps_property nested).bind fun _ => steps_skipNewlines.bind fun _ => steps_pure _
  refine (steps_isAt _).bind fun _ => .ite (fun _ => steps_pure _) fun _ => ?_
  refine .ite (fun _ => more) fun _ => steps_current.bind fun mark => ?_
  refine .ite (fun _ => steps_malformed_bind _ _) fun _ => steps_advance.bind fun _ => ?_
  refine steps_skipNewlines.bind fun _ => (steps_isAt _).bind fun _ => ?_
  exact .ite (fun _ => steps_pure _) fun _ => more

theorem steps_object : Steps origin (object inner) := by
  refine steps_advance.bind fun _ => steps_skipNewlines.bind fun _ => ?_
  refine (steps_loop (steps_propertyRound nested) []).bind fun _ => ?_
  exact steps_advance.bind fun _ => steps_pure _

theorem steps_generic : Steps origin (generic inner) := by
  refine steps_advance.bind fun _ => steps_advance.bind fun _ => ?_
  refine (steps_chain nested).bind fun _ => steps_current.bind fun mark => ?_
  exact .ite (fun _ => steps_malformed_bind _ _) fun _ => steps_advance.bind fun _ =>
    steps_pure _

theorem steps_atom : Steps origin (atom inner) := by
  refine steps_current.bind fun token => .ite (fun _ => ?_) fun _ => ?_
  · exact (steps_object nested).bind fun _ => steps_pure _
  refine .ite (fun _ => steps_malformed_bind _ _) fun _ => (steps_peek 1).bind fun _ => ?_
  exact .ite (fun _ => (steps_generic nested).bind fun _ => steps_pure _) fun _ =>
    steps_advance.bind fun _ => steps_pure _

/-! ## Arrays and unions -/

omit nested in
theorem steps_bracketRound (element : Node) : Steps origin (bracketRound element) := by
  refine (steps_isAt _).bind fun _ => .ite (fun _ => ?_) fun _ => steps_pure _
  refine (steps_peek 1).bind fun _ => .ite (fun _ => ?_) fun _ => steps_pure _
  exact steps_advance.bind fun _ => steps_advance.bind fun _ => steps_pure _

theorem steps_array : Steps origin (array inner) :=
  (steps_atom nested).bind fun element => steps_loop steps_bracketRound element

theorem steps_union : Steps origin (union inner) := by
  refine (steps_array nested).bind fun left => steps_loop (fun left => ?_) left
  refine (steps_isAt _).bind fun _ => .ite (fun _ => ?_) fun _ => steps_pure _
  exact steps_advance.bind fun _ => (steps_array nested).bind fun _ => steps_pure _

end

/-! ## Types -/

/-- With as many levels as there is room, the level that is one too many cannot be entered. -/
theorem steps_upTo {levels : Nat} (room : origin.nesting.room = levels) :
    Steps origin (upTo levels) := by
  induction levels generalizing origin with
  | zero => exact steps_tooDeep (origin.nesting.enter?_eq_none_iff.mpr room)
  | succ levels ih =>
    -- Inside the level there is room for one level fewer, as many as its types are given.
    refine steps_nested fun deeper enters => steps_union (ih ?_)
    exact Nat.succ.inj ((Nesting.room_of_enter? enters).symm.trans room)

theorem steps_rule : Steps origin rule := steps_room (steps_upTo rfl)

theorem steps_complete : Steps origin complete := by
  refine steps_skipNewlines.bind fun _ => steps_rule.bind fun _ => ?_
  refine steps_skipNewlines.bind fun _ => steps_current.bind fun rest => ?_
  exact .ite (fun _ => steps_malformed_bind _ _) fun _ => steps_pure _

/-- The rules of types, in which types are nested. -/
inductive IsRule : {α : Type} → Rule α → Prop
  | complete : IsRule complete
  | rule : IsRule rule
  | union : IsRule (union rule)
  | array : IsRule (array rule)
  | atom : IsRule (atom rule)
  | object : IsRule (object rule)
  | properties : IsRule (properties rule)
  | property : IsRule (property rule)
  | generic : IsRule (generic rule)

/-- Every rule of types runs in steps. -/
theorem IsRule.steps {α : Type} {part : Rule α} (isRule : IsRule part) : Steps origin part := by
  cases isRule with
  | complete => exact steps_complete
  | rule => exact steps_rule
  | union => exact steps_union steps_rule
  | array => exact steps_array steps_rule
  | atom => exact steps_atom steps_rule
  | object => exact steps_object steps_rule
  | properties => exact steps_loop (steps_propertyRound steps_rule) []
  | property => exact steps_property steps_rule
  | generic => exact steps_generic steps_rule

end TypeExpr

end DocGrammar
