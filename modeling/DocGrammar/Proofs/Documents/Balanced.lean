import DocGrammar.Document.Walk
import DocGrammar.Proofs.Pseudo.Course
import DocGrammar.Proofs.Specs.Course

/-! # Nesting is balanced

The counter of levels is shared by all sections of a document, so that a level that a rule failed to
leave would be missing ever after. No rule does so, however it ends, and none goes deeper than the
limit. What is nested too deep is refused by the very level that has no room, before it is entered.

* **`ParserRule`** — all rules that read tokens.
* **`ParserRule.nesting_balanced`** — the nesting on the way of a rule and behind it. -/

namespace DocGrammar

open Rule

/-- The rules that read tokens: those of all grammars, and the parts of types, of expressions and
statements and of specs sections. -/
inductive ParserRule : {α : Type} → Rule α → Prop
  /-- The cursor moves behind a token. -/
  | advance : ParserRule advance
  /-- The cursor moves behind tokens of some kinds. -/
  | skip (kinds : List TokenKind) : ParserRule (skip kinds)
  /-- A token of a kind. -/
  | expect (kind : TokenKind) (what : String) : ParserRule (expect kind what)
  /-- A leaf of a token. -/
  | leaf (kind : NodeKind) : ParserRule (leaf kind)
  /-- A leaf of an identifier. -/
  | identifier : ParserRule identifier
  /-- A part of a type. -/
  | type {α : Type} {part : Rule α} (isRule : TypeExpr.IsRule part) : ParserRule part
  /-- A part of an expression. -/
  | expression {α : Type} {part : Rule α} (isRule : Expression.IsRule part) : ParserRule part
  /-- A part of some statements. -/
  | statement {α : Type} {part : Rule α} (isRule : Statement.IsRule part) : ParserRule part
  /-- A part of a line of a specs section. -/
  | line {α : Type} {part : Rule α} (isRule : SpecLine.IsRule part) : ParserRule part
  /-- A part of a specs section. -/
  | body {α : Type} {part : Rule α} (isRule : SpecSection.IsRule part) : ParserRule part

namespace ParserRule

variable {α : Type} {rule : Rule α}

/-- Every rule runs in steps, from any state. -/
theorem steps (isRule : ParserRule rule) (state : RuleState) : Steps state rule := by
  cases isRule with
  | advance => exact steps_advance
  | skip kinds => exact steps_skip kinds
  | expect kind what => exact steps_expect kind what
  | leaf kind => exact steps_leaf kind
  | identifier => exact steps_identifier
  | type isRule => exact isRule.steps
  | expression isRule => exact isRule.steps
  | statement isRule => exact isRule.steps
  | line isRule => exact isRule.steps
  | body isRule => exact isRule.steps

/-- Whatever tokens a rule is run on for a section, the parse keeps its nesting. -/
theorem nesting_runRule {μ : Type} (isRule : ParserRule rule) (tokens : List Token)
    (walk : WalkState μ) :
    match WalkM.runRule rule tokens walk with
    | .ok _ final | .error _ final => final.session.nesting = walk.session.nesting := by
  unfold WalkM.runRule
  cases Cursor.ofTokens? tokens with
  | none => rfl
  | some cursor =>
    obtain ⟨visited, course⟩ := (isRule.steps ⟨cursor, walk.session.nesting⟩).course
    have same := course.beside.nesting
    dsimp only
    cases outcome : rule ⟨cursor, walk.session.nesting⟩ with
    | ok value final => rw [outcome] at same; exact same
    | error failure final => rw [outcome] at same; exact same

/-- A rule that starts within the limit comes in steps to its outcome. Whatever steps lead there,
the outcome has the nesting of the start, whether the rule succeeds or fails; no state on the way is
nested deeper than the limit; and a failure of too deep nesting stems from a state whose depth is
the limit, where any level is refused and the state is left as it was. -/
theorem nesting_balanced (isRule : ParserRule rule) (state : RuleState)
    (within : state.nesting.depth ≤ state.nesting.limit) :
    (∃ visited, Course rule state visited (rule state)) ∧
    (∀ visited outcome, Course rule state visited outcome →
      rule state = outcome ∧
      visited.head? = some state ∧ visited.getLast? = some outcome.final ∧
      outcome.final.nesting = state.nesting ∧
      (∀ moment ∈ visited, moment.nesting.limit = state.nesting.limit ∧
        moment.nesting.depth ≤ state.nesting.limit) ∧
      ∀ failure final, outcome = .error failure final → failure.IsDepth →
        ∃ full ∈ visited, full.nesting.depth = state.nesting.limit ∧
          full.cursor = final.cursor ∧
          ∀ {β : Type} (body : Rule β), nested body full = .error failure full) ∧
    ∀ {μ : Type} (tokens : List Token) (walk : WalkState μ),
      match WalkM.runRule rule tokens walk with
      | .ok _ final | .error _ final => final.session.nesting = walk.session.nesting := by
  refine ⟨(isRule.steps state).course, fun visited outcome course => ?_, isRule.nesting_runRule⟩
  have inside : ∀ moment ∈ visited, moment.nesting.limit = state.nesting.limit ∧
      moment.nesting.depth ≤ state.nesting.limit := by
    intro moment member
    have inside := course.inside moment member
    exact ⟨inside.limit, inside.limit ▸ inside.most within⟩
  refine ⟨course.run_eq, course.ends.1, course.ends.2, course.beside.nesting, inside, ?_⟩
  rintro failure final rfl depth
  obtain ⟨full, member, closed, cursor, refuses⟩ := course.exists_full depth
  refine ⟨full, member, ?_, cursor, refuses⟩
  -- No room is left, and the depth is no greater than the limit.
  have none := (full.nesting.enter?_eq_none_iff).mp closed
  obtain ⟨limit, most⟩ := inside full member
  rw [Nesting.room, limit] at none
  omega

/-- In front of a name with a type argument, where a single level may be entered. -/
def genericStart : RuleState :=
  ⟨⟨[], ⟨.identifier, "List", ⟨"f", ⟨1, 1⟩, ⟨1, 4⟩⟩⟩,
    [⟨.less, "<", ⟨"f", ⟨1, 5⟩, ⟨1, 5⟩⟩⟩, ⟨.identifier, "any", ⟨"f", ⟨1, 6⟩, ⟨1, 8⟩⟩⟩,
      ⟨.greater, ">", ⟨"f", ⟨1, 9⟩, ⟨1, 9⟩⟩⟩, ⟨.endOfInput, "", ⟨"f", ⟨1, 10⟩, ⟨1, 10⟩⟩⟩]⟩, ⟨1, 0⟩⟩

/-- The only level is entered for a name with type arguments, and refused for the argument. -/
theorem nesting_balanced_generic :
    genericStart.nesting.depth ≤ genericStart.nesting.limit ∧
    (Outcome.final (TypeExpr.rule genericStart)).nesting = ⟨1, 0⟩ ∧
    ∃ visited, Course TypeExpr.rule genericStart visited (TypeExpr.rule genericStart) ∧
      ∃ full ∈ visited, full.nesting.depth = 1 ∧
        nested TypeExpr.rule full =
          .error (.refused ⟨.tooDeep 1, ⟨"f", ⟨1, 6⟩, ⟨1, 8⟩⟩⟩) full := by
  have within : genericStart.nesting.depth ≤ genericStart.nesting.limit := by decide
  obtain ⟨⟨visited, course⟩, all, _⟩ := nesting_balanced (.type .rule) genericStart within
  obtain ⟨_, _, _, same, _, depth⟩ := all visited _ course
  have fails : TypeExpr.rule genericStart =
      .error (.refused ⟨.tooDeep 1, ⟨"f", ⟨1, 6⟩, ⟨1, 8⟩⟩⟩)
        (Outcome.final (TypeExpr.rule genericStart)) := rfl
  obtain ⟨full, member, deep, _, refuses⟩ := depth _ _ fails rfl
  exact ⟨within, same, visited, course, full, member, deep, refuses TypeExpr.rule⟩

end ParserRule

end DocGrammar
