import DocGrammar.Proofs.Rules.Outcome

/-! # What rules yield

* **`Rule.Yields`** — on success a rule has read some tokens and its value is good for them; on
  failure it has left every level of nesting and names one of some causes.
* **`Rule.Rounds`** — the rounds of a repetition, one behind the other.
* **`Rule.Yields.loop`** — a repetition whose rounds read tokens never runs out of rounds. -/

namespace DocGrammar

/-! ## Failures -/

/-- A rule that started on `start` fails with one of the causes, at the depth it started at. -/
def RuleState.Faults (causes : Cause → Prop) (start : RuleState) (failure : Failure)
    (final : RuleState) : Prop :=
  final.nesting = start.nesting ∧
    ∃ cause span, failure = .refused ⟨cause, span⟩ ∧ causes cause

namespace RuleState

variable {causes : Cause → Prop} {start middle final : RuleState} {read : List Token}
  {failure : Failure}

/-- Being refused with one of the causes is such a failure. -/
theorem faults_refused {cause : Cause} (span : Span) (allowed : causes cause) :
    start.Faults causes (.refused ⟨cause, span⟩) start :=
  ⟨rfl, cause, span, rfl, allowed⟩

/-- A failure behind a move is one of the whole rule. -/
theorem Faults.of_passes (moved : start.Passes read middle)
    (fault : middle.Faults causes failure final) : start.Faults causes failure final :=
  ⟨fault.1.trans moved.nesting, fault.2⟩

/-- A rule with fewer causes fails with one of more causes. -/
theorem Faults.mono {more : Cause → Prop} (weaker : ∀ cause, causes cause → more cause)
    (fault : start.Faults causes failure final) : start.Faults more failure final := by
  obtain ⟨nesting, cause, span, rfl, allowed⟩ := fault
  exact ⟨nesting, cause, span, rfl, weaker cause allowed⟩

end RuleState

namespace Rule

variable {α β : Type} {causes : Cause → Prop}

/-! ## Yielding -/

/-- On tokens that end with the input, a rule that succeeds has read some of them and has a value
that is good for the room it had and the tokens it read; a rule that fails names one of the
causes. -/
def Yields (causes : Cause → Prop) (rule : Rule α) (good : Nat → List Token → α → Prop) : Prop :=
  ∀ state, EndsInput state.cursor.rest →
    rule.Ensures state
      (fun value final =>
        ∃ read, state.Passes read final ∧ good state.nesting.room read value)
      (state.Faults causes)

variable {good good' : Nat → List Token → α → Prop} {rule : Rule α}

theorem Yields.mono (yields : rule.Yields causes good)
    (weaker : ∀ room read value, good room read value → good' room read value) :
    rule.Yields causes good' := by
  intro state ends
  refine (yields state ends).mono ?_ fun _ _ fault => fault
  rintro value final ⟨read, moved, holds⟩
  exact ⟨read, moved, weaker _ _ _ holds⟩

theorem Yields.mono_causes {more : Cause → Prop} (yields : rule.Yields causes good)
    (weaker : ∀ cause, causes cause → more cause) : rule.Yields more good := by
  intro state ends
  exact (yields state ends).mono (fun _ _ holds => holds) fun _ _ fault => fault.mono weaker

theorem yields_pure {value : α} (holds : ∀ room, good room [] value) :
    (pure value : Rule α).Yields causes good := by
  intro state _
  exact ⟨[], .refl state, holds _⟩

/-- A sequence yields what its second part yields behind its first part. -/
theorem Yields.bind {next : α → Rule β} {later : Nat → List Token → β → Prop}
    (first : rule.Yields causes good)
    (second : ∀ value, (next value).Yields causes fun room more result =>
      ∀ read, good room read value → later room (read ++ more) result) :
    (rule >>= next).Yields causes later := by
  intro state ends
  rw [ensures_bind]
  refine (first state ends).mono ?_ fun _ _ fault => fault
  rintro value middle ⟨read, moved, holds⟩
  refine (second value middle (moved.endsInput ends)).mono ?_ fun _ _ fault =>
    fault.of_passes moved
  rintro result final ⟨more, moved', holds'⟩
  rw [moved.nesting] at holds'
  exact ⟨read ++ more, moved.trans moved', holds' read holds⟩

/-- A rule may be judged where it is used: behind a move, for what the whole rule yields. -/
theorem Yields.ensures {start state : RuleState} {read : List Token}
    {post : α → RuleState → Prop} (yields : rule.Yields causes good)
    (ends : EndsInput start.cursor.rest) (moved : start.Passes read state)
    (posts : ∀ value final more, start.Passes (read ++ more) final →
      state.Passes more final → good start.nesting.room more value → post value final) :
    rule.Ensures state post (start.Faults causes) := by
  refine (yields state (moved.endsInput ends)).mono ?_ fun _ _ fault => fault.of_passes moved
  rintro value final ⟨more, moved', holds⟩
  rw [moved.nesting] at holds
  exact posts value final more (moved.trans moved') moved' holds

/-! ## Single tokens -/

/-- Expecting a kind other than the end of the input yields a token of that kind. -/
theorem yields_expect {kind : TokenKind} {what : String} (inner : kind ≠ .endOfInput)
    (allowed : ∀ found value, causes (.unexpectedToken found value [what])) :
    (expect kind what).Yields causes fun _ read token => read = [token] ∧ token.kind = kind := by
  intro state ends
  rw [ensures_expect]
  split
  · next found =>
    have moved := RuleState.passes_advanced ends (by rw [found]; exact inner)
    exact ⟨_, moved, rfl, found⟩
  · exact RuleState.faults_refused _ (allowed _ _)

/-- Skipping kinds of tokens other than the end of the input reads tokens of these kinds, as many
as there are. -/
theorem exists_passes_skipRun {kinds : List TokenKind} (inner : TokenKind.endOfInput ∉ kinds)
    (nesting : Nesting) (before : List Token) (current : Token) (after : List Token)
    (ends : EndsInput (current :: after)) :
    ∃ read, (⟨⟨before, current, after⟩, nesting⟩ : RuleState).Passes read
        ⟨Cursor.skipRun kinds before current after, nesting⟩ ∧
      (∀ token ∈ read, token.kind ∈ kinds) ∧
      (Cursor.skipRun kinds before current after).current.kind ∉ kinds := by
  induction after generalizing before current with
  | nil =>
    -- the last token is the end of the input, which is never skipped
    have kind : current.kind = .endOfInput := ends
    refine ⟨[], .refl _, by simp, ?_⟩
    rw [Cursor.skipRun, kind]
    exact inner
  | cons next more ih =>
    rw [Cursor.skipRun]
    split
    · next member =>
      obtain ⟨read, moved, members, stop⟩ := ih (current :: before) next ends.2
      have step : (⟨⟨before, current, next :: more⟩, nesting⟩ : RuleState).Passes [current]
          ⟨⟨current :: before, next, more⟩, nesting⟩ := ⟨rfl, rfl, rfl⟩
      refine ⟨current :: read, step.trans moved, ?_, stop⟩
      intro token inRead
      rcases List.mem_cons.mp inRead with rfl | later
      · exact member
      · exact members token later
    · next other => exact ⟨[], .refl _, by simp, other⟩

theorem ensures_skip {kinds : List TokenKind} (inner : TokenKind.endOfInput ∉ kinds)
    {state : RuleState} (ends : EndsInput state.cursor.rest) {post : Unit → RuleState → Prop}
    {fails : Failure → RuleState → Prop}
    (posts : ∀ read final, state.Passes read final → (∀ token ∈ read, token.kind ∈ kinds) →
      final.cursor.current.kind ∉ kinds → post () final) :
    (skip kinds).Ensures state post fails := by
  obtain ⟨read, moved, members, stop⟩ := exists_passes_skipRun inner state.nesting
    state.cursor.before state.cursor.current state.cursor.after ends
  exact posts read _ moved members stop

theorem yields_skipNewlines :
    skipNewlines.Yields causes fun _ read _ => ∀ token ∈ read, token.kind = .newline := by
  intro state ends
  refine ensures_skip (by decide) ends ?_
  intro read final moved members _
  exact ⟨read, moved, fun token member => by simpa using members token member⟩

/-! ## Nesting -/

/-- A nested rule yields what its body yields with one level of room less. -/
theorem Yields.nested (yields : rule.Yields causes good)
    (allowed : ∀ limit, causes (.tooDeep limit)) :
    (Rule.nested rule).Yields causes fun room read value =>
      ∃ inner, room = inner + 1 ∧ good inner read value := by
  intro state ends
  unfold Ensures Rule.nested
  cases entered : state.nesting.enter? with
  | none => exact RuleState.faults_refused _ (allowed _)
  | some deeper =>
    have body := yields { state with nesting := deeper } ends
    have left := Nesting.leave_of_enter? entered
    unfold Ensures at body
    simp only
    cases outcome : rule { state with nesting := deeper } with
    | ok value final =>
      rw [outcome] at body
      obtain ⟨read, moved, holds⟩ := body
      refine ⟨read, ⟨?_, moved.before, moved.rest⟩, deeper.room,
        Nesting.room_of_enter? entered, holds⟩
      -- the body has left as many levels as it entered, so one is left to leave
      show final.nesting.leave = state.nesting
      rw [moved.nesting]
      exact left
    | error failure final =>
      rw [outcome] at body
      obtain ⟨nesting, fault⟩ := body
      refine ⟨?_, fault⟩
      show final.nesting.leave = state.nesting
      rw [nesting]
      exact left

/-! ## Repetition -/

/-- The rounds of a repetition that starts with a value, reads some tokens and ends in a result,
where `step` judges each single round. -/
inductive Rounds (step : α → Nat → List Token → Round α β → Prop) (room : Nat) :
    α → List Token → β → Prop
  /-- The last round. -/
  | done {value : α} {read : List Token} {result : β}
      (last : step value room read (.done result)) : Rounds step room value read result
  /-- A round that others follow. -/
  | again {value next : α} {read more : List Token} {result : β}
      (first : step value room read (.again next)) (others : Rounds step room next more result) :
      Rounds step room value (read ++ more) result

/-- Rounds that read a token each are over before the tokens are. -/
theorem ensures_iterate {round : α → Rule (Round α β)}
    {step : α → Nat → List Token → Round α β → Prop}
    (yields : ∀ value, (round value).Yields causes (step value))
    (reads : ∀ value room read next, step value room read (.again next) → read ≠ [])
    (rounds : Nat) (value : α) (state : RuleState) (ends : EndsInput state.cursor.rest)
    (enough : state.cursor.after.length < rounds) :
    (iterate round rounds value).Ensures state
      (fun result final =>
        ∃ read, state.Passes read final ∧ Rounds step state.nesting.room value read result)
      (state.Faults causes) := by
  induction rounds generalizing value state with
  | zero => exact absurd enough (Nat.not_lt_zero _)
  | succ rounds ih =>
    rw [iterate, ensures_bind]
    refine (yields value state ends).mono ?_ fun _ _ fault => fault
    rintro outcome middle ⟨read, moved, holds⟩
    cases outcome with
    | done result => exact ⟨read, moved, .done holds⟩
    | again next =>
      -- a round that is not the last one takes a token, so fewer rounds are enough behind it
      have length := moved.length_after
      have nonempty := List.length_pos_iff.mpr (reads value _ read next holds)
      refine (ih next middle (moved.endsInput ends) (by omega)).mono ?_ fun _ _ fault =>
        fault.of_passes moved
      rintro result final ⟨more, moved', others⟩
      rw [moved.nesting] at others
      exact ⟨read ++ more, moved.trans moved', .again holds others⟩

/-- A repetition yields what its rounds yield together. -/
theorem Yields.loop {round : α → Rule (Round α β)}
    {step : α → Nat → List Token → Round α β → Prop}
    (yields : ∀ value, (round value).Yields causes (step value))
    (reads : ∀ value room read next, step value room read (.again next) → read ≠ [])
    (value : α) :
    (Rule.loop round value).Yields causes fun room read result =>
      Rounds step room value read result := by
  intro state ends
  rw [Rule.loop, ensures_bind, ensures_get]
  exact ensures_iterate yields reads _ value state ends (by omega)

/-- A repetition stops where its last round does. -/
theorem ensures_loop_done {round : α → Rule (Round α β)} {stop : RuleState → Prop}
    (stops : ∀ value state, (round value).Ensures state
      (fun outcome final => ∀ result, outcome = .done result → stop final) (fun _ _ => True))
    (value : α) (state : RuleState) :
    (Rule.loop round value).Ensures state (fun _ final => stop final) (fun _ _ => True) := by
  have iterates : ∀ rounds value state, (iterate round rounds value).Ensures state
      (fun _ final => stop final) (fun _ _ => True) := by
    intro rounds
    induction rounds with
    | zero => intro value state; trivial
    | succ rounds ih =>
      intro value state
      rw [iterate, ensures_bind]
      refine (stops value state).mono ?_ fun _ _ _ => trivial
      intro outcome final stopped
      cases outcome with
      | again next => exact ih next final
      | done result => exact stopped result rfl
  rw [Rule.loop, ensures_bind, ensures_get]
  exact iterates _ value state

end Rule

end DocGrammar
