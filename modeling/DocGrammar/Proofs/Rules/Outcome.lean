import DocGrammar.Rule.Basic

/-! # What rules do

A rule is judged by what it does on every state whose tokens end with the end of the input, and
with nothing else of that kind.

* **`Rule.Ensures`** — what holds behind a rule on one state, whether it succeeds or fails.
* **`RuleState.Passes`** — the move of a state behind some tokens it has read.
* **`Rule.Yields`** — on success a rule has read some tokens and its value is good for them; on
  failure it has left every level of nesting and names one of some causes.
* **`Rule.Yields.loop`** — a repetition whose rounds read tokens never runs out of rounds. -/

namespace DocGrammar

/-! ## Tokens that end with the input -/

/-- Whether the last of some tokens, and no other one, is the end of the input. -/
def EndsInput : List Token → Prop
  | [] => False
  | [last] => last.kind = .endOfInput
  | token :: next :: others => token.kind ≠ .endOfInput ∧ EndsInput (next :: others)

@[simp] theorem endsInput_singleton (last : Token) :
    EndsInput [last] ↔ last.kind = .endOfInput := Iff.rfl

@[simp] theorem endsInput_cons_cons (token next : Token) (others : List Token) :
    EndsInput (token :: next :: others) ↔
      token.kind ≠ .endOfInput ∧ EndsInput (next :: others) := Iff.rfl

theorem EndsInput.ne_nil {tokens : List Token} (ends : EndsInput tokens) : tokens ≠ [] := by
  rintro rfl
  exact ends

/-- Only the last token stands before nothing. -/
theorem EndsInput.exists_next {token : Token} {others : List Token}
    (ends : EndsInput (token :: others)) (kind : token.kind ≠ .endOfInput) :
    ∃ next more, others = next :: more := by
  cases others with
  | nil => exact absurd ends kind
  | cons next more => exact ⟨next, more, rfl⟩

/-- The end of the input has nothing behind it. -/
theorem EndsInput.eq_nil {token : Token} {others : List Token}
    (ends : EndsInput (token :: others)) (kind : token.kind = .endOfInput) : others = [] := by
  cases others with
  | nil => rfl
  | cons next more => exact absurd kind ends.1

/-- What remains behind some of the tokens ends with the input as well. -/
theorem EndsInput.of_append {read rest : List Token} (ends : EndsInput (read ++ rest))
    (nonempty : rest ≠ []) : EndsInput rest := by
  induction read with
  | nil => exact ends
  | cons token others ih =>
    cases tail : others ++ rest with
    | nil => exact absurd (List.append_eq_nil_iff.mp tail).2 nonempty
    | cons next more =>
      rw [List.cons_append, tail] at ends
      rw [tail] at ih
      exact ih ends.2

/-- Tokens that end with the input may follow any tokens of other kinds. -/
theorem EndsInput.append {read rest : List Token} (ends : EndsInput rest)
    (others : ∀ token ∈ read, token.kind ≠ .endOfInput) : EndsInput (read ++ rest) := by
  induction read with
  | nil => exact ends
  | cons token more ih =>
    have tail : EndsInput (more ++ rest) :=
      ih fun other member => others other (List.mem_cons_of_mem _ member)
    cases eq : more ++ rest with
    | nil => rw [eq] at tail; exact tail.elim
    | cons next behind =>
      rw [List.cons_append, eq]
      rw [eq] at tail
      exact ⟨others token List.mem_cons_self, tail⟩

namespace Cursor

/-- The tokens from the current one on. -/
def rest (cursor : Cursor) : List Token := cursor.current :: cursor.after

@[simp] theorem rest_mk (before : List Token) (current : Token) (after : List Token) :
    (Cursor.mk before current after).rest = current :: after := rfl

end Cursor

/-! ## Moves -/

namespace RuleState

/-- The state `final` is the state `start` moved behind the tokens `read`. -/
structure Passes (start : RuleState) (read : List Token) (final : RuleState) : Prop where
  /-- Every level that was entered is left again. -/
  nesting : final.nesting = start.nesting
  /-- The tokens read now stand before the cursor. -/
  before : final.cursor.before = read.reverse ++ start.cursor.before
  /-- The tokens read are those that the cursor stood before. -/
  rest : start.cursor.rest = read ++ final.cursor.rest

variable {start middle final : RuleState} {read more : List Token}

/-- Reading nothing is a move. -/
theorem Passes.refl (state : RuleState) : state.Passes [] state := ⟨rfl, rfl, rfl⟩

/-- Two moves make one. -/
theorem Passes.trans (first : start.Passes read middle) (second : middle.Passes more final) :
    start.Passes (read ++ more) final := by
  refine ⟨second.nesting.trans first.nesting, ?_, ?_⟩
  · rw [second.before, first.before, List.reverse_append, List.append_assoc]
  · rw [first.rest, second.rest, List.append_assoc]

/-- A state behind a move still ends with the input. -/
theorem Passes.endsInput (moved : start.Passes read final) (ends : EndsInput start.cursor.rest) :
    EndsInput final.cursor.rest := by
  rw [moved.rest] at ends
  exact ends.of_append (List.cons_ne_nil _ _)

/-- A move behind `n` tokens leaves `n` tokens fewer ahead. -/
theorem Passes.length_after (moved : start.Passes read final) :
    start.cursor.after.length = read.length + final.cursor.after.length := by
  have lengths := congrArg List.length moved.rest
  simp only [Cursor.rest, List.length_append, List.length_cons] at lengths
  omega

/-- The state with its cursor on the next token. -/
def advanced (state : RuleState) : RuleState := { state with cursor := state.cursor.advance }

@[simp] theorem nesting_advanced (state : RuleState) : state.advanced.nesting = state.nesting := rfl

/-- Advancing from any token but the last one reads that token. -/
theorem passes_advanced {state : RuleState} (ends : EndsInput state.cursor.rest)
    (kind : state.cursor.current.kind ≠ .endOfInput) :
    state.Passes [state.cursor.current] state.advanced := by
  obtain ⟨⟨before, current, after⟩, nesting⟩ := state
  obtain ⟨next, more, rfl⟩ := EndsInput.exists_next ends kind
  exact ⟨rfl, rfl, rfl⟩

/-- A token of a kind other than the end of the input is read by advancing behind a move. -/
theorem Passes.advanced {start state : RuleState} {read : List Token}
    (moved : start.Passes read state) (ends : EndsInput start.cursor.rest) {kind : TokenKind}
    (found : state.cursor.current.kind = kind) (inner : kind ≠ .endOfInput) :
    start.Passes (read ++ [state.cursor.current]) state.advanced := by
  have step := passes_advanced (moved.endsInput ends) (by rw [found]; exact inner)
  exact moved.trans step

/-- The token after the current one is the one that advancing leads to. -/
theorem peek_one {state : RuleState} (ends : EndsInput state.cursor.rest)
    (kind : state.cursor.current.kind ≠ .endOfInput) :
    state.cursor.peek 1 = state.advanced.cursor.current := by
  obtain ⟨⟨before, current, after⟩, nesting⟩ := state
  obtain ⟨next, more, rfl⟩ := EndsInput.exists_next ends kind
  rfl

end RuleState

/-! ## Outcomes -/

namespace Rule

variable {α β : Type}

/-- What holds behind a rule on a state: `post` if it succeeds, `fails` if it fails. -/
def Ensures (rule : Rule α) (state : RuleState) (post : α → RuleState → Prop)
    (fails : Failure → RuleState → Prop) : Prop :=
  match rule state with
  | .ok value final => post value final
  | .error failure final => fails failure final

variable {state : RuleState} {post post' : α → RuleState → Prop}
  {fails fails' : Failure → RuleState → Prop}

/-- What a rule ensures may be weakened. -/
theorem Ensures.mono {rule : Rule α} (ensured : rule.Ensures state post fails)
    (posts : ∀ value final, post value final → post' value final)
    (faults : ∀ failure final, fails failure final → fails' failure final) :
    rule.Ensures state post' fails' := by
  unfold Ensures at ensured ⊢
  cases outcome : rule state with
  | ok value final => rw [outcome] at ensured; exact posts value final ensured
  | error failure final => rw [outcome] at ensured; exact faults failure final ensured

/-- What a rule ensures in two ways it ensures in both. -/
theorem Ensures.and {rule : Rule α} (first : rule.Ensures state post fails)
    (second : rule.Ensures state post' fails') :
    rule.Ensures state (fun value final => post value final ∧ post' value final)
      (fun failure final => fails failure final ∧ fails' failure final) := by
  unfold Ensures at first second ⊢
  cases outcome : rule state with
  | ok value final => rw [outcome] at first second; exact ⟨first, second⟩
  | error failure final => rw [outcome] at first second; exact ⟨first, second⟩

@[simp] theorem ensures_trivial (rule : Rule α) (state : RuleState) :
    rule.Ensures state (fun _ _ => True) (fun _ _ => True) := by
  unfold Ensures
  split <;> trivial

/-- A sequence ensures what its second part ensures behind its first part. -/
@[simp] theorem ensures_bind (rule : Rule α) (next : α → Rule β) (state : RuleState)
    (post : β → RuleState → Prop) (fails : Failure → RuleState → Prop) :
    (rule >>= next).Ensures state post fails ↔
      rule.Ensures state (fun value middle => (next value).Ensures middle post fails) fails := by
  unfold Ensures
  show (match EStateM.bind rule next state with
    | .ok value final => post value final
    | .error failure final => fails failure final) ↔ _
  unfold EStateM.bind
  cases rule state <;> rfl

@[simp] theorem ensures_pure (value : α) :
    (pure value : Rule α).Ensures state post fails ↔ post value state := Iff.rfl

/-- A value may be converted behind a rule. -/
@[simp] theorem ensures_map (rule : Rule α) (convert : α → β) (state : RuleState)
    (post : β → RuleState → Prop) (fails : Failure → RuleState → Prop) :
    (convert <$> rule).Ensures state post fails ↔
      rule.Ensures state (fun value => post (convert value)) fails := by
  rw [← bind_pure_comp, ensures_bind]
  rfl

@[simp] theorem ensures_refuse (cause : Cause) (span : Span) :
    (refuse cause span : Rule α).Ensures state post fails ↔
      fails (.refused ⟨cause, span⟩) state := Iff.rfl

@[simp] theorem ensures_unexpected (token : Token) (wanted : List String) :
    (unexpected token wanted : Rule α).Ensures state post fails ↔
      fails (.refused ⟨.unexpectedToken token.kind token.value wanted, token.span⟩) state :=
  Iff.rfl

@[simp] theorem ensures_tooDeep :
    (tooDeep : Rule α).Ensures state post fails ↔
      fails (.refused ⟨.tooDeep state.nesting.limit, state.cursor.current.span⟩) state := Iff.rfl

@[simp] theorem ensures_get {post : RuleState → RuleState → Prop} :
    (get : Rule RuleState).Ensures state post fails ↔ post state state := Iff.rfl

@[simp] theorem ensures_set {post : PUnit → RuleState → Prop} (start : RuleState) :
    (set start : Rule PUnit).Ensures state post fails ↔ post ⟨⟩ start := Iff.rfl

@[simp] theorem ensures_current {post : Token → RuleState → Prop} :
    current.Ensures state post fails ↔ post state.cursor.current state := Iff.rfl

@[simp] theorem ensures_peek {post : Token → RuleState → Prop} (distance : Nat) :
    (peek distance).Ensures state post fails ↔ post (state.cursor.peek distance) state := Iff.rfl

@[simp] theorem ensures_previous {post : Token → RuleState → Prop} :
    previous.Ensures state post fails ↔ post state.cursor.previous state := Iff.rfl

@[simp] theorem ensures_isAt {post : Bool → RuleState → Prop} (kind : TokenKind) :
    (isAt kind).Ensures state post fails ↔ post (state.cursor.current.kind = kind) state := Iff.rfl

@[simp] theorem ensures_isAtAny {post : Bool → RuleState → Prop} (kinds : List TokenKind) :
    (isAtAny kinds).Ensures state post fails ↔ post (state.cursor.current.kind ∈ kinds) state :=
  Iff.rfl

@[simp] theorem ensures_advance {post : Token → RuleState → Prop} :
    advance.Ensures state post fails ↔ post state.cursor.current state.advanced := Iff.rfl

@[simp] theorem ensures_room {post : Nat → RuleState → Prop} :
    room.Ensures state post fails ↔ post state.nesting.room state := Iff.rfl

/-- A choice ensures what the chosen rule ensures. -/
@[simp] theorem ensures_ite {condition : Prop} [Decidable condition] (first second : Rule α) :
    (if condition then first else second : Rule α).Ensures state post fails ↔
      if condition then first.Ensures state post fails else second.Ensures state post fails := by
  split <;> rfl

/-- Expecting a kind reads a token of that kind or names what was wanted. -/
@[simp] theorem ensures_expect {post : Token → RuleState → Prop} (kind : TokenKind)
    (what : String) :
    (expect kind what).Ensures state post fails ↔
      if state.cursor.current.kind = kind then post state.cursor.current state.advanced
      else fails (.refused ⟨.unexpectedToken state.cursor.current.kind
        state.cursor.current.value [what], state.cursor.current.span⟩) state := by
  simp only [expect, ensures_bind, ensures_current, ensures_ite, ensures_advance,
    ensures_unexpected]

end Rule

end DocGrammar
