import DocGrammar.Proofs.Types.Course
import DocGrammar.Specs.Body

/-! # The course of reading a specs section

Every rule of specs sections runs in steps. Only the types of inputs and outputs enter levels of
nesting.

* **`SpecLine.IsRule`**, **`SpecSection.IsRule`** — the rules of lines and of bodies.
* **`SpecLine.IsRule.steps`**, **`SpecSection.IsRule.steps`** — all of them run in steps. -/

namespace DocGrammar

open Rule

variable {origin : RuleState}

namespace SpecLine

/-! ## Shared parts -/

theorem steps_number : Steps origin number := by
  refine (steps_isAt _).bind fun _ => .ite (fun _ => ?_) fun _ => ?_
  · exact steps_advance.bind fun _ => (steps_expect _ _).bind fun _ => steps_pure _
  · exact (steps_expect _ _).bind fun _ => steps_pure _

theorem steps_value : Steps origin value := by
  refine steps_current.bind fun token => ?_
  split
  · exact (steps_leaf _).bind fun _ => steps_pure _
  · exact (steps_leaf _).bind fun _ => steps_pure _
  · exact steps_number.bind fun _ => steps_pure _
  · exact steps_number.bind fun _ => steps_pure _
  · exact (steps_leaf _).bind fun _ => steps_pure _
  · exact steps_unexpected_bind _ _

theorem steps_propertyAccess : Steps origin propertyAccess :=
  (steps_chain steps_identifier).bind fun _ => steps_pure _

/-! ## Calls -/

theorem steps_property : Steps origin property :=
  steps_identifier.bind fun _ => (steps_expect _ _).bind fun _ => steps_value.bind fun _ =>
    steps_pure _

theorem steps_object : Steps origin object :=
  steps_advance.bind fun _ => (steps_delimited steps_comma steps_property).bind fun _ =>
    steps_advance.bind fun _ => steps_pure _

theorem steps_argument : Steps origin argument := by
  refine steps_current.bind fun token => ?_
  split
  · exact (steps_leaf _).bind fun _ => steps_pure _
  · exact (steps_leaf _).bind fun _ => steps_pure _
  · exact steps_number.bind fun _ => steps_pure _
  · exact steps_number.bind fun _ => steps_pure _
  · exact steps_object.bind fun _ => steps_pure _
  · exact steps_unexpected_bind _ _

theorem steps_call : Steps origin call :=
  steps_identifier.bind fun _ => (steps_expect _ _).bind fun _ =>
    (steps_delimited steps_comma steps_argument).bind fun _ => steps_advance.bind fun _ =>
      steps_pure _

/-! ## Lines -/

theorem steps_intent : Steps origin intent := by
  refine steps_current.bind fun verb => .ite (fun _ => steps_unexpected_bind _ _) fun _ => ?_
  refine steps_advance.bind fun _ => steps_identifier.bind fun _ => ?_
  refine (steps_expect _ _).bind fun _ => ?_
  refine steps_identifier.bind fun _ => (steps_expect _ _).bind fun _ => ?_
  exact steps_identifier.bind fun _ => steps_pure _

theorem steps_input : Steps origin input :=
  steps_identifier.bind fun _ => (steps_expect _ _).bind fun _ =>
    TypeExpr.steps_rule.bind fun _ => steps_pure _

theorem steps_output : Steps origin output := by
  refine steps_current.bind fun mark => (steps_peek 1).bind fun behind => ?_
  refine .ite (fun _ => steps_unexpected_bind _ _) fun _ => ?_
  refine steps_advance.bind fun _ => steps_advance.bind fun _ => steps_identifier.bind fun _ => ?_
  refine .ite (fun _ => ?_) fun _ => ?_
  · exact (steps_expect _ _).bind fun _ => TypeExpr.steps_rule.bind fun _ => steps_pure _
  · exact (steps_expect _ _).bind fun _ => (steps_chain steps_identifier).bind fun _ =>
      steps_pure _

theorem steps_result : Steps origin result := by
  refine steps_current.bind fun token => (steps_peek 1).bind fun behind => .ite (fun _ => ?_)
    fun _ => ?_
  · exact steps_advance.bind fun _ => steps_advance.bind fun _ => steps_identifier.bind fun _ =>
      steps_pure _
  split
  · exact (steps_leaf _).bind fun _ => steps_pure _
  · exact steps_number.bind fun _ => steps_pure _
  · exact steps_number.bind fun _ => steps_pure _
  · exact (steps_leaf _).bind fun _ => steps_pure _
  · exact (steps_leaf _).bind fun _ => steps_pure _
  · exact steps_unexpected_bind _ _

theorem steps_exampleCall : Steps origin exampleCall :=
  steps_call.bind fun _ => (steps_expect _ _).bind fun _ => steps_result.bind fun _ =>
    steps_pure _

theorem steps_range : Steps origin range := by
  refine steps_current.bind fun token => .ite (fun _ => ?_) fun _ => .ite (fun _ => ?_) fun _ => ?_
  · exact steps_advance.bind fun _ => steps_value.bind fun _ => (steps_expect _ _).bind fun _ =>
      steps_value.bind fun _ => (steps_expect _ _).bind fun _ => steps_pure _
  · exact steps_unexpected_bind _ _
  · exact steps_number.bind fun _ => (steps_expect _ _).bind fun _ => steps_number.bind fun _ =>
      steps_pure _

theorem steps_constraint : Steps origin constraint := by
  refine steps_propertyAccess.bind fun _ => steps_current.bind fun token => ?_
  refine .ite (fun _ => ?_) fun _ => .ite (fun _ => ?_) fun _ => .ite (fun _ => ?_) fun _ => ?_
  · exact (steps_leaf _).bind fun _ => steps_value.bind fun _ => steps_pure _
  · exact steps_advance.bind fun _ => steps_range.bind fun _ => steps_pure _
  · exact steps_advance.bind fun _ => (steps_expect _ _).bind fun _ => steps_pure _
  · exact steps_unexpected_bind _ _

theorem steps_side : Steps origin side := by
  refine steps_current.bind fun token => ?_
  split
  · exact steps_leaf _
  · exact (steps_peek 1).bind fun _ => .ite (fun _ => steps_call) fun _ => steps_propertyAccess
  · exact steps_unexpected _ _

theorem steps_invariant : Steps origin invariant :=
  steps_side.bind fun _ => (steps_expect _ _).bind fun _ => steps_side.bind fun _ => steps_pure _

/-- The rules of lines and of their parts. -/
inductive IsRule : {α : Type} → Rule α → Prop
  | intent : IsRule intent
  | input : IsRule input
  | output : IsRule output
  | exampleCall : IsRule exampleCall
  | call : IsRule call
  | argument : IsRule argument
  | object : IsRule object
  | property : IsRule property
  | result : IsRule result
  | constraint : IsRule constraint
  | propertyAccess : IsRule propertyAccess
  | range : IsRule range
  | value : IsRule value
  | number : IsRule number
  | invariant : IsRule invariant
  | side : IsRule side

/-- Every rule of a line runs in steps. -/
theorem IsRule.steps {α : Type} {part : Rule α} (isRule : IsRule part) : Steps origin part := by
  cases isRule with
  | intent => exact steps_intent
  | input => exact steps_input
  | output => exact steps_output
  | exampleCall => exact steps_exampleCall
  | call => exact steps_call
  | argument => exact steps_argument
  | object => exact steps_object
  | property => exact steps_property
  | result => exact steps_result
  | constraint => exact steps_constraint
  | propertyAccess => exact steps_propertyAccess
  | range => exact steps_range
  | value => exact steps_value
  | number => exact steps_number
  | invariant => exact steps_invariant
  | side => exact steps_side

end SpecLine

/-! ## Bodies -/

namespace SpecSection

theorem steps_line (part : SpecSection) : Steps origin part.line := by
  cases part with
  | intent => exact SpecLine.steps_intent
  | inputs => exact SpecLine.steps_input
  | outputs => exact SpecLine.steps_output
  | examples => exact SpecLine.steps_exampleCall
  | constraints => exact SpecLine.steps_constraint
  | invariants => exact SpecLine.steps_invariant

theorem steps_endOfLine : Steps origin endOfLine := by
  refine steps_current.bind fun token => .ite (fun _ => ?_) fun _ => .ite (fun _ => ?_) fun _ => ?_
  · exact steps_advance.bind fun _ => steps_pure _
  · exact steps_unexpected _ _
  · exact steps_pure _

theorem steps_lines {spec : Rule Node} (each : Steps origin spec) : Steps origin (lines spec) := by
  refine steps_skipNewlines.bind fun _ => steps_loop (fun found => ?_) []
  refine (steps_isAt _).bind fun _ => .ite (fun _ => steps_pure _) fun _ => each.bind fun _ => ?_
  exact steps_endOfLine.bind fun _ => steps_skipNewlines.bind fun _ => steps_pure _

theorem steps_declaration : Steps origin declaration := by
  refine steps_skipNewlines.bind fun _ => steps_current.bind fun first => ?_
  refine .ite (fun _ => steps_refuse_bind (by simp [Cause.kind]) _) fun _ => ?_
  refine SpecLine.steps_intent.bind fun _ => steps_endOfLine.bind fun _ => ?_
  refine steps_skipNewlines.bind fun _ => steps_current.bind fun rest => ?_
  exact .ite (fun _ => steps_refuse_bind (by simp [Cause.kind]) _) fun _ => steps_pure _

theorem steps_body (part : SpecSection) : Steps origin part.body := by
  have other (kind : NodeKind) (part : SpecSection) :
      Steps origin (do return Node.branch kind (← lines part.line)) :=
    (steps_lines (steps_line part)).bind fun _ => steps_pure _
  cases part with
  | intent => exact steps_declaration.bind fun _ => steps_pure _
  | inputs => exact other _ inputs
  | outputs => exact other _ outputs
  | examples => exact other _ examples
  | constraints => exact other _ constraints
  | invariants => exact other _ invariants

/-- The rules of bodies and of what their lines share. -/
inductive IsRule : {α : Type} → Rule α → Prop
  | body (part : SpecSection) : IsRule part.body
  | declaration : IsRule declaration
  | lines (part : SpecSection) : IsRule (lines part.line)
  | endOfLine : IsRule endOfLine

/-- Every rule of a body runs in steps. -/
theorem IsRule.steps {α : Type} {part : Rule α} (isRule : IsRule part) : Steps origin part := by
  cases isRule with
  | body part => exact steps_body part
  | declaration => exact steps_declaration
  | lines part => exact steps_lines (steps_line part)
  | endOfLine => exact steps_endOfLine

end SpecSection

end DocGrammar
