import DocGrammar.Proofs.Pseudo.LayeredComplete
import DocGrammar.Proofs.Pseudo.Limits

/-! # Binding powers read the layered grammar

What is read by binding powers is what the layered grammar derives, as long as it is not nested too
deep. For what is derived but not read under some limit would not be read under a greater one
either, although there is one that has a level left for every token.

* **`Expression.level_of_ok`**, **`Expression.exists_ok_of_level`** — the two directions.
* **`Expression.rule_ok_iff_level`** — expressions are read as the layered grammar derives them. -/

namespace DocGrammar

open Rule Layered

namespace Expression

variable {state final : RuleState} {node : Node} {rest : List Token}

/-- An expression that is read is derived. -/
theorem level_of_ok (ends : EndsInput state.cursor.rest) (outcome : rule state = .ok node final) :
    ∃ read, state.Passes read final ∧
      Level operatorRows state.cursor.rest node final.cursor.rest := by
  have leaves := leaves_upTo state.nesting.room 0 state ends
  have outcome : upTo state.nesting.room 0 state = .ok node final := outcome
  unfold Leaves Ensures at leaves
  rw [outcome] at leaves
  exact leaves

/-- With a level left for every token an expression that is derived is read. -/
theorem exists_ok_of_level (state : RuleState)
    (level : Level operatorRows state.cursor.rest node rest)
    (enough : state.cursor.rest.length ≤ state.nesting.room) : ∃ read final,
      rule state = .ok node final ∧ state.Passes read final ∧ final.cursor.rest = rest := by
  obtain ⟨next, others, rfl, _⟩ := level.stops
  have runs : (upTo state.nesting.room 0).Runs _ _ _ _ := Level.runs level enough
  exact runs.exists_ok (List.cons_ne_nil _ _) le_rfl

/-- An expression that is derived is read, or it is nested too deep. -/
theorem isDepth_of_level (level : Level operatorRows state.cursor.rest node rest)
    {failure : Failure} (outcome : rule state = .error failure final) : failure.IsDepth := by
  let limit := state.nesting.limit + (state.nesting.depth + state.cursor.rest.length)
  let limits : TokenLimits :=
    ⟨⟨state.nesting.limit, limit, Nat.le_add_right _ _⟩, state.cursor.tokens⟩
  have steady : Steady limits rule _ := steady_rule
  have tracked := steady state ⟨rfl, rfl⟩
  unfold Ensures at tracked
  rw [outcome] at tracked
  obtain ⟨_, _, deep | fails⟩ := tracked
  · exact deep
  · have enough : state.cursor.rest.length ≤ limit - state.nesting.depth := by omega
    obtain ⟨_, _, succeeds, _⟩ := exists_ok_of_level (state.under limit) level enough
    rw [succeeds] at fails
    cases fails

/-- An expression is read exactly if the layered grammar derives it, as the same tree and up to the
same token, unless it is nested too deep. -/
theorem rule_ok_iff_level (state : RuleState) (ends : EndsInput state.cursor.rest)
    (shallow : ∀ failure final, rule state = .error failure final → ¬failure.IsDepth)
    (node : Node) (rest : List Token) :
    (∃ read final, rule state = .ok node final ∧ state.Passes read final ∧
      final.cursor.rest = rest) ↔ Level operatorRows state.cursor.rest node rest := by
  constructor
  · rintro ⟨_, final, outcome, _, rfl⟩
    obtain ⟨_, _, level⟩ := level_of_ok ends outcome
    exact level
  · intro level
    cases outcome : rule state with
    | error failure final =>
      exact absurd (isDepth_of_level level outcome) (shallow failure final outcome)
    | ok value final =>
      obtain ⟨read, moved, own⟩ := level_of_ok ends outcome
      have own : Level (rowsFrom 0) state.cursor.rest value final.cursor.rest := own
      obtain ⟨rfl, rfl⟩ := own.unique level
      exact ⟨read, final, rfl, moved, rfl⟩

theorem rule_ok_iff_level_difference :
    let token (kind : TokenKind) (value : String) : Token := ⟨kind, value, Span.fileStart "p"⟩
    let name (value : String) : Token := token .identifier value
    let minus : Token := token .minus "-"
    let tokens : List Token := [token .leftParen "(", name "a", token .dot ".", name "b",
      token .rightParen ")", token .dot ".", name "c", minus, token .newline "\n", name "d", minus,
      minus, name "e", token .endOfInput ""]
    let state : RuleState := .facing [] tokens ⟨3, 0⟩
    let leaf (value : String) : Node := .leaf .identifier (name value)
    let node : Node := infixNode minus
      (infixNode minus (.branch .propertyAccess [leaf "a", leaf "b", leaf "c"]) (leaf "d"))
      (signNode minus (leaf "e"))
    EndsInput tokens ∧
      (∀ failure final, rule state = .error failure final → ¬failure.IsDepth) ∧
      Level operatorRows tokens node [token .endOfInput ""] := by
  intro token name minus tokens state leaf node
  have ends : EndsInput tokens := by simp [tokens, token, name, minus]
  have outcome : ∃ final, rule state = .ok node final ∧ state.Passes (tokens.take 13) final ∧
      final.cursor.rest = [token .endOfInput ""] := ⟨_, rfl, ⟨rfl, rfl, rfl⟩, rfl⟩
  obtain ⟨final, succeeds, moved, left⟩ := outcome
  have shallow : ∀ failure final, rule state = .error failure final → ¬failure.IsDepth := by
    intro failure final fails
    rw [succeeds] at fails
    cases fails
  exact ⟨ends, shallow, (rule_ok_iff_level state ends shallow _ _).mp
    ⟨_, final, succeeds, moved, left⟩⟩

end Expression

end DocGrammar
