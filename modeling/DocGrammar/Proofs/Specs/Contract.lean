import DocGrammar.Proofs.Rules.Progress
import DocGrammar.Proofs.Types.Soundness
import DocGrammar.Specs.Body

/-! # What the rules of specs sections do with any tokens

Every rule of a line takes a token or fails with an error that its section can be dropped for, so
the rule of a body always comes to an end.

* **`SpecSection.takes_line`** — the rule of a line takes a token.
* **`SpecSection.takes_body`** — the rule of a body never runs out of rounds. -/

namespace DocGrammar

open Rule

theorem TypeExpr.takes_rule : TypeExpr.rule.Takes fun _ => 0 :=
  TypeExpr.yields_rule.takes (fun _ refusable => refusable.recoverable) fun _ _ _ _ => Nat.zero_le _

namespace SpecLine

/-! ## Shared parts -/

theorem takes_number : number.Takes fun _ => 1 := by
  refine takes_of_from fun token => takesFrom_isAt (TakesFrom.ite (fun found => ?_) fun _ => ?_)
  · refine (takesFrom_advance (of_decide_eq_true found) (by decide)).before fun _ => ?_
    exact ((takes_expect (by decide) _).before fun _ => takes_pure rfl).zero
  · exact ((takes_expect (by decide) _).before fun _ => takes_pure rfl).from token

theorem takes_value : value.Takes fun _ => 1 := by
  refine takes_current fun token => ?_
  split
  · next kind => exact (takesFrom_leaf kind (by decide)).before fun _ => takes_pure rfl
  · next kind => exact (takesFrom_leaf kind (by decide)).before fun _ => takes_pure rfl
  · exact (takes_number.before fun _ => takes_pure rfl).from token
  · exact (takes_number.before fun _ => takes_pure rfl).from token
  · next kind => exact (takesFrom_leaf kind (by decide)).before fun _ => takes_pure rfl
  · exact ((takes_unexpected _ _).before fun _ => takes_pure rfl).from token

theorem takes_propertyAccess : propertyAccess.Takes fun _ => 1 :=
  (takes_chain (by decide) takes_identifier).before fun _ => takes_pure rfl

/-! ## Calls -/

theorem takes_property : property.Takes fun _ => 1 := by
  refine takes_identifier.before fun name => ?_
  refine (takes_expect (by decide) _).zero.then fun _ => ?_
  exact (takes_value.before fun _ => takes_pure rfl).zero

/-- An object starts with a token other than the last one where a brace stands. -/
theorem takesFrom_object {token : Token} (brace : token.kind = .leftBrace) :
    object.TakesFrom token fun _ => 1 := by
  refine (takesFrom_advance brace (by decide)).before fun start => ?_
  refine (takes_delimited takes_comma takes_property).then fun properties => ?_
  exact takes_advance.then fun stop => takes_pure rfl

theorem takes_argument : argument.Takes fun _ => 1 := by
  refine takes_current fun token => ?_
  split
  · next kind => exact (takesFrom_leaf kind (by decide)).before fun _ => takes_pure rfl
  · next kind => exact (takesFrom_leaf kind (by decide)).before fun _ => takes_pure rfl
  · exact (takes_number.before fun _ => takes_pure rfl).from token
  · exact (takes_number.before fun _ => takes_pure rfl).from token
  · next kind => exact (takesFrom_object kind).before fun _ => takes_pure rfl
  · exact ((takes_unexpected _ _).before fun _ => takes_pure rfl).from token

theorem takes_call : call.Takes fun _ => 1 := by
  refine takes_identifier.before fun name => ?_
  refine (takes_expect (by decide) _).zero.then fun _ => ?_
  refine (takes_delimited takes_comma takes_argument).then fun arguments => ?_
  exact takes_advance.then fun close => takes_pure rfl

/-! ## Lines -/

theorem takes_intent : intent.Takes fun _ => 1 := by
  refine takes_current fun token => TakesFrom.ite (fun _ => ?_) fun known => ?_
  · exact (takes_unexpected_bind _ _ _).from token
  · have kind : token.kind = .identifier :=
      Decidable.byContradiction fun other => by simp [other] at known
    refine (takesFrom_advance kind (by decide)).before fun _ => ?_
    refine takes_identifier.zero.then fun subject => ?_
    refine (takes_expect (by decide) _).zero.then fun _ => ?_
    refine takes_identifier.zero.then fun parameters => ?_
    refine (takes_expect (by decide) _).zero.then fun _ => ?_
    exact (takes_identifier.before fun _ => takes_pure rfl).zero

theorem takes_input : input.Takes fun _ => 1 := by
  refine takes_identifier.before fun name => ?_
  refine (takes_expect (by decide) _).zero.then fun _ => ?_
  exact TypeExpr.takes_rule.before fun _ => takes_pure rfl

theorem takes_output : output.Takes fun _ => 1 := by
  refine takes_current fun token => takesFrom_peek fun behind => ?_
  refine TakesFrom.ite (fun _ => ?_) fun known => ?_
  · exact (takes_unexpected_bind _ _ _).from token
  · have kind : token.kind = .identifier :=
      Decidable.byContradiction fun other => by simp [other] at known
    refine (takesFrom_advance kind (by decide)).before fun _ => ?_
    refine takes_advance.then fun _ => takes_identifier.zero.then fun name => ?_
    split
    · refine (takes_expect (by decide) _).zero.then fun _ => ?_
      exact TypeExpr.takes_rule.then fun type => (takes_pure rfl).then fun _ => takes_pure rfl
    · refine (takes_expect (by decide) _).zero.then fun _ => ?_
      refine (takes_chain (by decide) takes_identifier).zero.then fun errors => ?_
      exact (takes_pure rfl).then fun _ => takes_pure rfl

theorem takes_result : result.Takes fun _ => 1 := by
  refine takes_current fun token => takesFrom_peek fun behind => ?_
  refine TakesFrom.ite (fun known => ?_) fun _ => ?_
  · have kind : token.kind = .identifier :=
      Decidable.byContradiction fun other => by simp [other] at known
    refine (takesFrom_advance kind (by decide)).before fun _ => ?_
    refine takes_advance.then fun _ => ?_
    exact (takes_identifier.before fun _ => takes_pure rfl).zero
  · split
    · next kind => exact (takesFrom_leaf kind (by decide)).before fun _ => takes_pure rfl
    · exact (takes_number.before fun _ => takes_pure rfl).from token
    · exact (takes_number.before fun _ => takes_pure rfl).from token
    · next kind => exact (takesFrom_leaf kind (by decide)).before fun _ => takes_pure rfl
    · next kind => exact (takesFrom_leaf kind (by decide)).before fun _ => takes_pure rfl
    · exact (takes_unexpected_bind _ _ _).from token

theorem takes_exampleCall : exampleCall.Takes fun _ => 1 := by
  refine takes_call.before fun made => ?_
  refine (takes_expect (by decide) _).zero.then fun _ => ?_
  exact (takes_result.before fun _ => takes_pure rfl).zero

theorem takes_range : range.Takes fun _ => 1 := by
  refine takes_current fun token => TakesFrom.ite (fun kind => ?_) fun _ => ?_
  · refine (takesFrom_advance kind (by decide)).before fun _ => ?_
    refine takes_value.zero.then fun low => ?_
    refine (takes_expect (by decide) _).zero.then fun _ => ?_
    refine takes_value.zero.then fun high => ?_
    exact ((takes_expect (by decide) _).before fun _ => takes_pure rfl).zero
  · have behind : (number >>= fun low => expect .dotDot "'..'" >>= fun _ =>
        number >>= fun high => pure (Node.branch .range [low, high])).Takes fun _ => 1 := by
      refine takes_number.before fun low => ?_
      refine (takes_expect (by decide) _).zero.then fun _ => ?_
      exact (takes_number.before fun _ => takes_pure rfl).zero
    exact TakesFrom.ite (fun _ => (takes_unexpected_bind _ _ _).from token)
      fun _ => behind.from token

theorem takes_constraint : constraint.Takes fun _ => 1 := by
  refine takes_propertyAccess.before fun target => takes_current fun token => ?_
  refine TakesFrom.ite (fun _ => ?_) fun _ => TakesFrom.ite (fun _ => ?_) fun _ =>
    TakesFrom.ite (fun _ => ?_) fun _ => (takes_unexpected_bind _ _ _).from token
  · refine ((takes_leaf _).then fun operator => takes_value.zero.then fun right => ?_).from token
    exact (takes_pure rfl).then fun _ => takes_pure rfl
  · refine (takes_advance.then fun _ => takes_range.zero.then fun span => ?_).from token
    exact (takes_pure rfl).then fun _ => takes_pure rfl
  · refine (takes_advance.then fun _ => ?_).from token
    refine (takes_expect (by decide) _).zero.then fun pattern => ?_
    exact (takes_pure rfl).then fun _ => takes_pure rfl

theorem takes_side : side.Takes fun _ => 1 := by
  refine takes_current fun token => ?_
  split
  · next kind => exact takesFrom_leaf kind (by decide)
  · refine takesFrom_peek fun behind => TakesFrom.ite (fun _ => ?_) fun _ => ?_
    · exact takes_call.from token
    · exact takes_propertyAccess.from token
  · exact (takes_unexpected _ _).from token

theorem takes_invariant : invariant.Takes fun _ => 1 := by
  refine takes_side.before fun left => ?_
  refine (takes_expect (by decide) _).zero.then fun _ => ?_
  exact (takes_side.before fun _ => takes_pure rfl).zero

end SpecLine

/-! ## Bodies -/

namespace SpecSection

theorem takes_line (part : SpecSection) : part.line.Takes fun _ => 1 := by
  cases part with
  | intent => exact SpecLine.takes_intent
  | inputs => exact SpecLine.takes_input
  | outputs => exact SpecLine.takes_output
  | examples => exact SpecLine.takes_exampleCall
  | constraints => exact SpecLine.takes_constraint
  | invariants => exact SpecLine.takes_invariant

theorem takes_endOfLine : endOfLine.Takes fun _ => 0 := by
  refine takes_current fun token => TakesFrom.ite (fun _ => ?_) fun _ => ?_
  · exact (takes_advance.then fun _ => takes_pure rfl).from token
  · exact TakesFrom.ite (fun _ => (takes_unexpected _ _).from token)
      fun _ => (takes_pure rfl).from token

theorem takes_lineRound {spec : Rule Node} (takes : spec.Takes fun _ => 1) (found : List Node) :
    (lineRound spec found).Takes Round.taken := by
  refine takes_of_from fun token => takesFrom_isAt (TakesFrom.ite (fun _ => ?_) fun _ => ?_)
  · exact (takes_pure rfl).from token
  · refine ((takes.before fun next => ?_).from token).round
    exact takes_endOfLine.then fun _ => takes_skipNewlines.then fun _ => takes_pure rfl

theorem takes_lines {spec : Rule Node} (takes : spec.Takes fun _ => 1) :
    (lines spec).Takes fun _ => 0 :=
  takes_skipNewlines.then fun _ => takes_loop (takes_lineRound takes) []

theorem takes_declaration : declaration.Takes fun _ => 0 := by
  have empty : Cause.emptyIntent.Recoverable := rfl
  have second : Cause.secondDeclaration.Recoverable := rfl
  refine takes_skipNewlines.then fun _ => takes_current fun first => ?_
  refine TakesFrom.ite (fun _ => (takes_refuse_bind empty _ _).from first) fun _ => ?_
  refine (SpecLine.takes_intent.zero.then fun found => ?_).from first
  refine takes_endOfLine.then fun _ => takes_skipNewlines.then fun _ => takes_current fun rest => ?_
  exact TakesFrom.ite (fun _ => (takes_refuse_bind second _ _).from rest)
    fun _ => (takes_pure rfl).from rest

theorem takes_body (part : SpecSection) : part.body.Takes fun _ => 0 := by
  cases part with
  | intent => exact takes_declaration.before fun _ => takes_pure rfl
  | _ => exact (takes_lines (takes_line _)).before fun _ => takes_pure rfl

end SpecSection

end DocGrammar
