import DocGrammar.Document.Walk
import DocGrammar.Proofs.Rules.Progress
import DocGrammar.Proofs.Rules.Reading

/-! # Walks that leave the parse as it was

What a section contributes must not depend on what other sections did to the parse. A walk is
isolated if it neither looks at the diagnostics reported so far nor at the log, and leaves both of
them and the nesting depth unchanged, whether it succeeds or fails.

* **`WalkM.runRule_eq`** — what it means to run a rule on some tokens.
* **`WalkM.Isolated`** — walks that leave the parse as it was.
* **`WalkM.isolated_runRule`** — running a rule that makes progress is isolated.
* **`walkSections_of_ok`**, **`walkSections_of_dropped`** — how a walk goes on behind a section.
* **`walk_induction`** — induction along what a walk goes on with. -/

namespace DocGrammar

namespace WalkM

variable {μ α β : Type}

/-! ## Running rules -/

/-- A walk leaves its memory behind. -/
theorem run_eq (walk : WalkM μ α) (memory : μ) (session : Session) :
    run walk memory session =
      match walk ⟨session, memory⟩ with
      | .ok value final => .ok value final.session
      | .error failure final => .error failure final.session := rfl

/-- The tokens that a rule sees: all but the comments. -/
def seen (tokens : List Token) : List Token :=
  tokens.filter fun token => token.kind ≠ .comment

/-- Tokens without comments are all seen. -/
theorem seen_eq_self {tokens : List Token} (uncommented : ∀ token ∈ tokens, token.kind ≠ .comment) :
    seen tokens = tokens :=
  List.filter_eq_self.mpr fun token member => decide_eq_true (uncommented token member)

/-- A rule starts before the first token that it sees, at the depth that the parse has reached. -/
theorem runRule_eq (rule : Rule α) {tokens : List Token} (nonempty : seen tokens ≠ [])
    (state : WalkState μ) :
    runRule rule tokens state =
      match rule (.facing [] (seen tokens) state.session.nesting) with
      | .ok value final =>
        .ok value { state with session := { state.session with nesting := final.nesting } }
      | .error failure final =>
        .error failure
          { state with session := { state.session with nesting := final.nesting } } := by
  obtain ⟨first, others, kept⟩ := List.exists_cons_of_ne_nil nonempty
  rw [kept]
  unfold seen at kept
  unfold runRule Cursor.ofTokens?
  rw [kept]
  rfl

/-- A rule that reads all tokens up to the last runs on them and leaves the walk as it was. -/
theorem exists_runRule {rule : Rule α} {room : Nat} {tokens : List Token} {last : Token}
    {good : α → Prop} (reads : rule.Reads room tokens [last] good)
    (uncommented : ∀ token ∈ tokens ++ [last], token.kind ≠ .comment) (state : WalkState μ)
    (roomy : room ≤ state.session.nesting.room) :
    ∃ value, good value ∧ runRule rule (tokens ++ [last]) state = .ok value state := by
  obtain ⟨value, holds, outcome⟩ := reads.exists_ok (List.cons_ne_nil _ _) []
    state.session.nesting roomy
  have seen := seen_eq_self uncommented
  refine ⟨value, holds, ?_⟩
  rw [runRule_eq rule (by rw [seen]; simp), seen, outcome]
  rfl

/-! ## Isolated walks -/

/-- How a walk ends with a result and a state. -/
def settled (state : WalkState μ) : Except Diagnostic α → EStateM.Result Failure (WalkState μ) α
  | .ok value => .ok value state
  | .error diagnostic => .error (.refused diagnostic) state

/-- A walk that starts with `memory` and ends with `later`, has a result that depends on nothing
but the file and the nesting depth, and changes nothing but what is remembered. -/
def Isolated (walk : WalkM μ α) (memory later : μ) : Prop :=
  ∀ file nesting, ∃ result, ∀ diagnostics events,
    walk ⟨⟨file, nesting, diagnostics, events⟩, memory⟩ =
      settled ⟨⟨file, nesting, diagnostics, events⟩, later⟩ result

variable {memory later : μ} {walk : WalkM μ α} {next : α → WalkM μ β}

theorem isolated_pure (value : α) : (pure value : WalkM μ α).Isolated memory memory :=
  fun _ _ => ⟨.ok value, fun _ _ => rfl⟩

theorem isolated_refuse (cause : Cause) (span : Span) :
    (refuse cause span : WalkM μ α).Isolated memory memory :=
  fun _ _ => ⟨.error ⟨cause, span⟩, fun _ _ => rfl⟩

/-- A sequence is isolated if its parts are and the second one remembers nothing new. -/
theorem Isolated.bind (first : walk.Isolated memory later)
    (second : ∀ value, (next value).Isolated later later) :
    (walk >>= next).Isolated memory later := by
  intro file nesting
  obtain ⟨result, runs⟩ := first file nesting
  cases result with
  | error diagnostic =>
    refine ⟨.error diagnostic, fun diagnostics events => ?_⟩
    show EStateM.bind walk next _ = _
    unfold EStateM.bind
    rw [runs]
    rfl
  | ok value =>
    obtain ⟨result, runs'⟩ := second value file nesting
    refine ⟨result, fun diagnostics events => ?_⟩
    show EStateM.bind walk next _ = _
    unfold EStateM.bind
    rw [runs]
    exact runs' diagnostics events

/-- Nothing follows a refusal. -/
theorem isolated_refuse_bind (cause : Cause) (span : Span) (next : α → WalkM μ β) :
    ((refuse cause span : WalkM μ α) >>= next).Isolated memory memory :=
  fun _ _ => ⟨.error ⟨cause, span⟩, fun _ _ => rfl⟩

theorem Isolated.ite {condition : Prop} [Decidable condition] {first second : WalkM μ α}
    (yes : condition → first.Isolated memory later)
    (no : ¬condition → second.Isolated memory later) :
    (if condition then first else second : WalkM μ α).Isolated memory later := by
  split
  · next holds => exact yes holds
  · next fails => exact no fails

theorem isolated_file_bind {next : String → WalkM μ β}
    (walks : ∀ name, (next name).Isolated memory later) :
    (file >>= next).Isolated memory later :=
  fun name nesting => walks name name nesting

/-- What follows a computation that may be refused is judged for its value. -/
theorem isolated_ofExcept_bind {result : Except Diagnostic α}
    (walks : ∀ value, result = .ok value → (next value).Isolated memory memory) :
    (ofExcept result >>= next).Isolated memory memory := by
  cases result with
  | error diagnostic => exact fun _ _ => ⟨.error diagnostic, fun _ _ => rfl⟩
  | ok value => exact walks value rfl

/-- A rule that makes progress leaves every level that it enters, so running it is isolated. -/
theorem isolated_runRule {rule : Rule α} {least : α → Nat} (takes : rule.Takes least)
    {tokens : List Token} (ends : EndsInput (seen tokens)) :
    (runRule rule tokens : WalkM μ α).Isolated memory memory := by
  intro file nesting
  have nonempty := ends.ne_nil
  have ensured := takes (.facing [] (seen tokens) nesting)
    (by rw [RuleState.rest_facing nonempty]; exact ends)
  unfold Rule.Ensures at ensured
  cases outcome : rule (.facing [] (seen tokens) nesting) with
  | ok value final =>
    rw [outcome] at ensured
    obtain ⟨read, moved, _⟩ := ensured
    refine ⟨.ok value, fun diagnostics events => ?_⟩
    rw [runRule_eq rule nonempty]
    simp only [outcome]
    -- a rule that succeeds has left as many levels as it entered
    rw [moved.nesting, RuleState.nesting_facing]
    rfl
  | error failure final =>
    rw [outcome] at ensured
    obtain ⟨left, cause, span, rfl, _⟩ := ensured
    refine ⟨.error ⟨cause, span⟩, fun diagnostics events => ?_⟩
    rw [runRule_eq rule nonempty]
    simp only [outcome]
    rw [left, RuleState.nesting_facing]
    rfl

end WalkM

/-! ## Steps of a walk over sections -/

section

variable {μ : Type} {rule : Section → WalkM μ (List Node)} {resume : Section → Bool}
  {part : Section} {others : List Section} {state next : WalkState μ}

/-- Reporting a failure adds its diagnostic and nothing else but events. -/
theorem exists_reportDropped (part : Section) (diagnostic : Diagnostic) (dropped : Nat)
    (file : String) (nesting : Nesting) (diagnostics : List Diagnostic) (events : List Event)
    (memory : μ) :
    ∃ events', (reportDropped part diagnostic dropped : WalkM μ Unit)
        ⟨⟨file, nesting, diagnostics, events⟩, memory⟩ =
      .ok () ⟨⟨file, nesting, diagnostics ++ [diagnostic], events'⟩, memory⟩ := by
  by_cases none : dropped = 0
  · subst none
    exact ⟨_, rfl⟩
  · refine ⟨events ++ [.recovering diagnostic] ++ [.skipping dropped part.title], ?_⟩
    show EStateM.Result.ok () (WalkState.mk (if dropped = 0 then _ else _) memory) = _
    rw [if_neg none]
    rfl

/-- Induction along a walk. Behind a section it goes on with all others, or with those behind the
ones that are dropped with the section. -/
theorem walk_induction (resume : Section → Bool) {motive : List Section → Prop} (nil : motive [])
    (cons : ∀ part others, motive others →
      motive (others.dropWhile (part.isBelow resume)) → motive (part :: others))
    (parts : List Section) : motive parts := by
  induction size : parts.length using Nat.strongRecOn generalizing parts with
  | ind size ih =>
    subst size
    cases parts with
    | nil => exact nil
    | cons part others =>
      have fewer := (List.dropWhile_sublist (part.isBelow resume) (l := others)).length_le
      exact cons part others (ih _ (Nat.lt_succ_self _) others rfl)
        (ih _ (Nat.lt_succ_of_le fewer) _ rfl)

/-- Behind a section that succeeds the walk goes on with the next one. -/
theorem walkSections_of_ok {nodes : List Node}
    (reads : sectionNodes rule part state = .ok nodes next) :
    walkSections rule resume (part :: others) state =
      match walkSections rule resume others next with
      | .ok more final => .ok (nodes ++ more) final
      | .error failure final => .error failure final := by
  rw [walkSections]
  cases behind : walkSections rule resume others next with
  | ok more final => simp only [reads, behind]
  | error failure final => simp only [reads, behind]

/-- A failure that no section is dropped for ends the walk. -/
theorem walkSections_of_fatal {failure : Failure} (reads : sectionNodes rule part state =
      .error failure next) (fatal : failure.recoverable? = none) :
    walkSections rule resume (part :: others) state = .error failure next := by
  rw [walkSections]
  simp only [reads, fatal]

/-- Behind a section that fails the walk goes on with the next one that is not below it. -/
theorem walkSections_of_dropped {failure : Failure} {diagnostic : Diagnostic}
    (reads : sectionNodes rule part state = .error failure next)
    (recoverable : failure.recoverable? = some diagnostic) {reported : WalkState μ}
    (reports : reportDropped part diagnostic
      (others.takeWhile (part.isBelow resume)).length next = .ok () reported) :
    walkSections rule resume (part :: others) state =
      walkSections rule resume (others.dropWhile (part.isBelow resume)) reported := by
  rw [walkSections]
  simp only [reads, recoverable]
  show EStateM.bind _ _ next = _
  unfold EStateM.bind
  rw [reports]

end

end DocGrammar
