import DocGrammar.Proofs.Rules.Limits

/-! # The course of a run

What a rule does on its way does not show in its outcome. Its course tells the steps of a run: it
looks at the state, moves the cursor within the tokens, comes back to where it was, fails, or enters
a level of nesting, which it leaves with whatever outcome. A level that cannot be entered refuses
the token that stands there.

* **`Rule.Course`** — the runs of rules, with the states they come through and their outcome.
* **`Rule.Course.run_eq`**, **`Rule.Course.beside`** — the outcome is that of the rule, and its
  nesting is the one that the run started with.
* **`Rule.Course.inside`** — no state on the way is nested deeper than the limit allows.
* **`Rule.Course.exists_full`** — a run that is nested too deep stopped where no level was left.
* **`Rule.Steps`** — rules that run in such steps, from every state that has the same tokens and the
  same nesting as a given one. -/

namespace DocGrammar

/-! ## States on the way -/

namespace RuleState

/-- Whether two states have the same tokens and the same nesting. -/
structure Beside (state origin : RuleState) : Prop where
  /-- They stand in the same tokens. -/
  tokens : state.cursor.tokens = origin.cursor.tokens
  /-- They are nested equally deep under the same limit. -/
  nesting : state.nesting = origin.nesting

/-- Whether a state stands in the same tokens as another one, under the same limit, no less deep and
no deeper than the limit allows. -/
structure Inside (state origin : RuleState) : Prop where
  /-- They stand in the same tokens. -/
  tokens : state.cursor.tokens = origin.cursor.tokens
  /-- They have the same limit. -/
  limit : state.nesting.limit = origin.nesting.limit
  /-- The state is at least as deep. -/
  least : origin.nesting.depth ≤ state.nesting.depth
  /-- The state is at most as deep as the limit says, if the other one is. -/
  most : origin.nesting.depth ≤ origin.nesting.limit → state.nesting.depth ≤ state.nesting.limit

variable {state middle origin : RuleState} {deeper : Nesting}

theorem Beside.refl (state : RuleState) : state.Beside state := ⟨rfl, rfl⟩

theorem Beside.symm (beside : state.Beside origin) : origin.Beside state :=
  ⟨beside.tokens.symm, beside.nesting.symm⟩

theorem Beside.trans (first : state.Beside middle) (second : middle.Beside origin) :
    state.Beside origin :=
  ⟨first.tokens.trans second.tokens, first.nesting.trans second.nesting⟩

theorem Beside.inside (beside : state.Beside origin) : state.Inside origin := by
  have same := beside.nesting
  exact ⟨beside.tokens, by rw [same], Nat.le_of_eq (by rw [same]), by rw [same]; exact id⟩

theorem Inside.trans (first : state.Inside middle) (second : middle.Inside origin) :
    state.Inside origin :=
  ⟨first.tokens.trans second.tokens, first.limit.trans second.limit,
    Nat.le_trans second.least first.least, fun within => first.most (second.most within)⟩

/-- A level that is entered is inside the limit. -/
theorem inside_of_enter? (enters : state.nesting.enter? = some deeper) :
    ({ state with nesting := deeper } : RuleState).Inside state := by
  obtain ⟨free, same⟩ := Option.ite_none_right_eq_some.mp enters
  cases same
  exact ⟨rfl, rfl, Nat.le_succ _, fun _ => free⟩

end RuleState

/-! ## Outcomes -/

namespace Rule

variable {α β : Type}

/-- The outcome of a run of a rule. -/
abbrev Outcome (α : Type) : Type := EStateM.Result Failure RuleState α

namespace Outcome

/-- The state behind a run. -/
def final : Outcome α → RuleState
  | .ok _ final => final
  | .error _ final => final

/-- The outcome of a level of nesting, given that of the run inside it. -/
def leave : Outcome α → Outcome α
  | .ok value final => .ok value { final with nesting := final.nesting.leave }
  | .error failure final => .error failure { final with nesting := final.nesting.leave }

theorem final_leave (outcome : Outcome α) :
    outcome.leave.final = { outcome.final with nesting := outcome.final.nesting.leave } := by
  cases outcome <;> rfl

end Outcome

/-- The outcome where no level can be entered: the current token is nested too deep, and the state
is left as it was. -/
def tooDeepAt (state : RuleState) : Outcome α :=
  .error (.refused ⟨.tooDeep state.nesting.limit, state.cursor.current.span⟩) state

/-! ## Courses -/

/-- The course of a run: a rule, the state where it starts, the states that it comes through, and
its outcome. -/
inductive Course : {α : Type} → Rule α → RuleState → List RuleState → Outcome α → Prop
  /-- A value is there without a step. -/
  | value {α : Type} (value : α) (state : RuleState) :
    Course (pure value) state [state] (.ok value state)
  /-- The state is looked at. -/
  | look (state : RuleState) : Course get state [state] (.ok state state)
  /-- The cursor moves within the tokens. -/
  | move (move : Cursor → Cursor) (state : RuleState)
    (keeps : (move state.cursor).tokens = state.cursor.tokens) :
    Course (modify fun state => { state with cursor := move state.cursor } : Rule PUnit) state
      [state, { state with cursor := move state.cursor }]
      (.ok ⟨⟩ { state with cursor := move state.cursor })
  /-- A state that was seen before is taken up again. -/
  | back (start state : RuleState) (beside : start.Beside state) :
    Course (set start) state [state, start] (.ok ⟨⟩ start)
  /-- The rule fails, and not because it is nested too deep. -/
  | fail {α : Type} (failure : Failure) (state : RuleState) (other : ¬failure.IsDepth) :
    Course (throw failure : Rule α) state [state] (.error failure state)
  /-- The rule succeeds, and another one follows. -/
  | follow {α β : Type} {rule : Rule α} {next : α → Rule β} {state middle : RuleState}
    {visited more : List RuleState} {value : α} {outcome : Outcome β}
    (first : Course rule state visited (.ok value middle))
    (second : Course (next value) middle more outcome) :
    Course (rule >>= next) state (visited ++ more) outcome
  /-- The rule fails, and nothing follows. -/
  | stop {α β : Type} {rule : Rule α} {next : α → Rule β} {state final : RuleState}
    {visited : List RuleState} {failure : Failure}
    (first : Course rule state visited (.error failure final)) :
    Course (rule >>= next) state visited (.error failure final)
  /-- A level is entered, and left with the outcome of what is inside it. -/
  | level {α : Type} {body : Rule α} {state : RuleState} {deeper : Nesting}
    {visited : List RuleState} {outcome : Outcome α}
    (enters : state.nesting.enter? = some deeper)
    (inner : Course body { state with nesting := deeper } visited outcome) :
    Course (nested body) state (state :: visited ++ [outcome.leave.final]) outcome.leave
  /-- A level cannot be entered. -/
  | full {α : Type} (body : Rule α) (state : RuleState) (full : state.nesting.enter? = none) :
    Course (nested body) state [state] (tooDeepAt state)
  /-- A level that cannot be entered is refused, whatever would be inside it. -/
  | refused {α : Type} (state : RuleState) (full : state.nesting.enter? = none) :
    Course (tooDeep : Rule α) state [state] (tooDeepAt state)

variable {rule : Rule α} {state : RuleState} {visited : List RuleState} {outcome : Outcome α}

/-- A rule where no level can be entered. -/
theorem nested_of_full (body : Rule α) (full : state.nesting.enter? = none) :
    nested body state = tooDeepAt state := by
  unfold nested
  rw [full]
  rfl

theorem nested_of_enter? {body : Rule α} {deeper : Nesting}
    (enters : state.nesting.enter? = some deeper)
    (run : body { state with nesting := deeper } = outcome) :
    nested body state = outcome.leave := by
  unfold nested
  rw [enters]
  dsimp only
  rw [run]
  cases outcome <;> rfl

/-- A course ends with the outcome of the rule. -/
theorem Course.run_eq (course : Course rule state visited outcome) : rule state = outcome := by
  induction course with
  | value | look | move | back | fail | refused => rfl
  | @follow α β rule next _ _ _ _ _ _ _ _ first second =>
    show EStateM.bind rule next _ = _
    rw [EStateM.bind, first]
    exact second
  | @stop α β rule next _ _ _ _ _ first =>
    show EStateM.bind rule next _ = _
    rw [EStateM.bind, first]
  | level enters _ inner => exact nested_of_enter? enters inner
  | full body state full => exact nested_of_full body full

/-- Every level that a run enters is left again, whether it succeeds or fails. -/
theorem Course.beside (course : Course rule state visited outcome) :
    outcome.final.Beside state := by
  induction course with
  | value | look | fail | full | refused => exact .refl _
  | move move state keeps => exact ⟨keeps, rfl⟩
  | back start state beside => exact beside
  | follow _ _ first second => exact second.trans first
  | stop _ first => exact first
  | @level α body state deeper visited outcome enters _ inner =>
    -- The run inside ends at the depth that was entered, so that leaving it leads back.
    have left := Nesting.leave_of_enter? enters
    rw [outcome.final_leave]
    refine ⟨inner.tokens, ?_⟩
    show outcome.final.nesting.leave = state.nesting
    rw [inner.nesting, left]

/-- A run comes from the state where it starts to the state of its outcome. -/
theorem Course.ends (course : Course rule state visited outcome) :
    visited.head? = some state ∧ visited.getLast? = some outcome.final := by
  induction course with
  | value | look | move | back | fail | full | refused => exact ⟨rfl, rfl⟩
  | follow _ _ first second =>
    rw [List.head?_append, List.getLast?_append, first.1, second.2]
    exact ⟨rfl, rfl⟩
  | stop _ first => exact first
  | level => exact ⟨rfl, List.getLast?_concat⟩

/-- No state that a run comes through is deeper than the limit allows. -/
theorem Course.inside (course : Course rule state visited outcome) :
    ∀ moment ∈ visited, moment.Inside state := by
  induction course with
  | value | look | fail | full | refused =>
    exact List.forall_mem_singleton.mpr (RuleState.Beside.refl _).inside
  | move move state keeps =>
    exact List.forall_mem_cons.mpr ⟨(RuleState.Beside.refl _).inside,
      List.forall_mem_singleton.mpr (Course.move move state keeps).beside.inside⟩
  | back start state beside =>
    exact List.forall_mem_cons.mpr ⟨(RuleState.Beside.refl _).inside,
      List.forall_mem_singleton.mpr beside.inside⟩
  -- the second part starts where the first ends, which is inside of the same levels
  | follow first _ before behind =>
    refine List.forall_mem_append.mpr ⟨before, fun moment member => ?_⟩
    exact (behind moment member).trans first.beside.inside
  | stop _ before => exact before
  | level enters inner within =>
    have whole := (Course.level enters inner).beside.inside
    refine List.forall_mem_append.mpr ⟨List.forall_mem_cons.mpr
      ⟨(RuleState.Beside.refl _).inside, fun moment member => ?_⟩,
      List.forall_mem_singleton.mpr whole⟩
    exact (within moment member).trans (RuleState.inside_of_enter? enters)

/-- A run that fails because it is nested too deep comes through a state where no level can be
entered. There any level is refused in the same way, and the state is left as it was. -/
theorem Course.exists_full {failure : Failure} {final : RuleState}
    (course : Course rule state visited (.error failure final)) (depth : failure.IsDepth) :
    ∃ full ∈ visited, full.nesting.enter? = none ∧ full.cursor = final.cursor ∧
      ∀ {γ : Type} (body : Rule γ), nested body full = .error failure full := by
  -- Only a level without room fails in this way; all other steps hand such a failure on.
  generalize same : (.error failure final : Outcome α) = outcome at course
  induction course generalizing failure final with
  | value | look | move | back => cases same
  | fail _ _ other => cases same; exact absurd depth other
  | follow _ _ _ second =>
    obtain ⟨full, member, holds⟩ := second depth same
    exact ⟨full, List.mem_append_right _ member, holds⟩
  | stop _ first =>
    cases same
    exact first depth rfl
  | @level α body state deeper visited outcome enters inner ih =>
    cases outcome with
    | ok value final => cases same
    | error reason last =>
      cases same
      obtain ⟨full, member, holds⟩ := ih depth rfl
      exact ⟨full, List.mem_append_left _ (List.mem_cons_of_mem _ member), holds⟩
  | full _ state full | refused state full =>
    cases same
    exact ⟨state, List.mem_singleton_self _, full, rfl, fun body => nested_of_full body full⟩

/-! ## Rules that run in steps -/

/-- A rule that runs in steps, wherever it starts with the same tokens and the same nesting as
`origin`. -/
def Steps (origin : RuleState) (rule : Rule α) : Prop :=
  ∀ state, state.Beside origin → ∃ visited outcome, Course rule state visited outcome

variable {origin : RuleState} {next : α → Rule β} {cause : Cause}

theorem Steps.course (steps : Steps state rule) :
    ∃ visited, Course rule state visited (rule state) := by
  obtain ⟨visited, outcome, course⟩ := steps state (.refl state)
  exact ⟨visited, course.run_eq ▸ course⟩

theorem steps_pure (value : α) : Steps origin (pure value) :=
  fun state _ => ⟨_, _, .value value state⟩

/-- A sequence runs in steps if its parts do, the second one for every value. -/
theorem Steps.bind (first : Steps origin rule) (second : ∀ value, Steps origin (next value)) :
    Steps origin (rule >>= next) := by
  intro state beside
  obtain ⟨visited, outcome, course⟩ := first state beside
  cases outcome with
  | error failure final => exact ⟨_, _, .stop course⟩
  | ok value middle =>
    obtain ⟨more, outcome, behind⟩ := second value middle (course.beside.trans beside)
    exact ⟨_, _, .follow course behind⟩

theorem Steps.ite {condition : Prop} [Decidable condition] {other : Rule α}
    (yes : condition → Steps origin rule) (no : ¬condition → Steps origin other) :
    Steps origin (if condition then rule else other) := by
  split
  · next holds => exact yes holds
  · next fails => exact no fails

/-! ## Failing -/

theorem steps_throw {failure : Failure} (other : ¬failure.IsDepth) :
    Steps origin (throw failure : Rule α) :=
  fun state _ => ⟨_, _, .fail failure state other⟩

theorem steps_refuse (other : cause.kind ≠ .depth) (span : Span) :
    Steps origin (refuse cause span : Rule α) :=
  steps_throw other

/-- A refusal has no value, so that nothing follows it. -/
theorem steps_refuse_bind (other : cause.kind ≠ .depth) (span : Span) :
    Steps origin (refuse cause span >>= next) :=
  fun state _ => ⟨_, _, .stop (.fail _ state other)⟩

theorem steps_unexpected (token : Token) (wanted : List String) :
    Steps origin (unexpected token wanted : Rule α) :=
  steps_refuse (by simp [Cause.kind]) _

theorem steps_unexpected_bind (token : Token) (wanted : List String) :
    Steps origin (unexpected token wanted >>= next) :=
  steps_refuse_bind (by simp [Cause.kind]) _

theorem steps_tooDeep (full : origin.nesting.enter? = none) : Steps origin (tooDeep : Rule α) :=
  fun state beside => ⟨_, _, .refused state (beside.nesting ▸ full)⟩

/-! ## Looking at the state -/

/-- What follows a look at the state is judged for each state beside the origin. -/
theorem steps_get {next : RuleState → Rule β}
    (second : ∀ start, start.Beside origin → Steps origin (next start)) :
    Steps origin (get >>= next) := by
  intro state beside
  obtain ⟨visited, outcome, course⟩ := second state beside state beside
  exact ⟨_, _, .follow (.look state) course⟩

/-- A state beside the origin may be taken up again. -/
theorem steps_set {start : RuleState} (beside : start.Beside origin) : Steps origin (set start) :=
  fun state other => ⟨_, _, .back start state (beside.trans other.symm)⟩

theorem steps_current : Steps origin current := steps_get fun _ _ => steps_pure _

theorem steps_peek (distance : Nat) : Steps origin (peek distance) :=
  steps_get fun _ _ => steps_pure _

theorem steps_previous : Steps origin previous := steps_get fun _ _ => steps_pure _

theorem steps_isAt (kind : TokenKind) : Steps origin (isAt kind) :=
  steps_current.bind fun _ => steps_pure _

theorem steps_isAtAny (kinds : List TokenKind) : Steps origin (isAtAny kinds) :=
  steps_current.bind fun _ => steps_pure _

/-- The room is the same wherever the nesting is. -/
theorem steps_room {next : Nat → Rule β} (second : Steps origin (next origin.nesting.room)) :
    Steps origin (room >>= next) :=
  steps_get fun _ beside => beside.nesting ▸ second

/-! ## Moving -/

theorem steps_move {move : Cursor → Cursor}
    (keeps : ∀ cursor, (move cursor).tokens = cursor.tokens) :
    Steps origin (modify fun state => { state with cursor := move state.cursor } : Rule PUnit) :=
  fun state _ => ⟨_, _, .move move state (keeps _)⟩

theorem steps_advance : Steps origin advance :=
  steps_current.bind fun _ => (steps_move Cursor.tokens_advance).bind fun _ => steps_pure _

theorem steps_skip (kinds : List TokenKind) : Steps origin (skip kinds) :=
  steps_move fun cursor => cursor.tokens_skip kinds

theorem steps_skipNewlines : Steps origin skipNewlines := steps_skip _

theorem steps_expect (kind : TokenKind) (what : String) : Steps origin (expect kind what) :=
  steps_current.bind fun token => .ite (fun _ => steps_advance) fun _ => steps_unexpected token _

theorem steps_comma : Steps origin comma := (steps_expect _ _).bind fun _ => steps_pure _

theorem steps_leaf (kind : NodeKind) : Steps origin (leaf kind) :=
  steps_advance.bind fun _ => steps_pure _

theorem steps_identifier : Steps origin identifier :=
  (steps_expect _ _).bind fun _ => steps_pure _

/-! ## Nesting -/

/-- A level is full, or what is inside it runs in steps. -/
theorem steps_nested (inner : ∀ deeper, origin.nesting.enter? = some deeper →
      Steps { origin with nesting := deeper } rule) : Steps origin (nested rule) := by
  intro state beside
  cases enters : state.nesting.enter? with
  | none => exact ⟨_, _, .full rule state enters⟩
  | some deeper =>
    obtain ⟨visited, outcome, course⟩ := inner deeper (beside.nesting ▸ enters)
      { state with nesting := deeper } ⟨beside.tokens, rfl⟩
    exact ⟨_, _, .level enters course⟩

/-! ## Repetition -/

section

variable {round : α → Rule (Round α β)} (rounds : ∀ value, Steps origin (round value))

include rounds

theorem steps_iterate (count : Nat) (value : α) : Steps origin (iterate round count value) := by
  induction count generalizing value with
  | zero => exact steps_throw id
  | succ count ih =>
    refine (rounds value).bind fun outcome => ?_
    cases outcome with
    | again next => exact ih next
    | done result => exact steps_pure result

theorem steps_loop (value : α) : Steps origin (loop round value) :=
  steps_get fun _ _ => steps_iterate rounds _ value

end

theorem steps_delimited {close : TokenKind} {separator : Rule Unit}
    (separates : Steps origin separator) (each : Steps origin rule) :
    Steps origin (delimited close separator rule) := by
  refine steps_loop (fun items => (steps_isAt close).bind fun closes => ?_) []
  have more : Steps origin (do return Round.again (items ++ [← rule]) :
      Rule (Round (List α) (List α))) := each.bind fun _ => steps_pure _
  refine .ite (fun _ => steps_pure _) fun _ => .ite (fun _ => more) fun _ => ?_
  exact separates.bind fun _ => more

theorem steps_chain {separator : TokenKind} (each : Steps origin rule) :
    Steps origin (chain separator rule) := by
  refine each.bind fun first => steps_loop (fun items => ?_) [first]
  exact (steps_isAt separator).bind fun _ => .ite
    (fun _ => steps_advance.bind fun _ => each.bind fun _ => steps_pure _) fun _ => steps_pure _

end Rule

end DocGrammar
