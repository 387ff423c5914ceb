import DocGrammar.Proofs.Documents.Run
import DocGrammar.Proofs.Rules.Contract
import DocGrammar.Proofs.Text.Readings

/-! # What a walk over sections yields

A walk whose sections leave the parse as it was either ends with a failure that no section is
dropped for, or yields the nodes of the sections that it has read. Every diagnostic that it reports
on its way is one that a section was dropped for.

* **`Walked`** — the sections of a walk with its nodes and its diagnostics.
* **`walkOutcome_walkSections`** — how a walk ends.
* **`WalkM.exists_of_bind`**, **`WalkM.exists_of_runRule`** — what a walk that succeeds has read. -/

namespace DocGrammar

/-! ## Walks that succeed -/

namespace WalkM

variable {μ α β : Type} {walk : WalkM μ α} {state final : WalkState μ}

/-- A sequence that succeeds has yielded what its first part does. -/
theorem exists_of_bind {next : α → WalkM μ β} {value : β}
    (reads : (walk >>= next) state = .ok value final) :
    ∃ found middle, walk state = .ok found middle ∧ next found middle = .ok value final := by
  have reads : EStateM.bind walk next state = .ok value final := reads
  unfold EStateM.bind at reads
  split at reads
  · next found middle first => exact ⟨found, middle, first, reads⟩
  · cases reads

/-- A reading that succeeds leaves the state as it was. -/
theorem exists_of_ofExcept {result : Except Diagnostic α} {value : α}
    (reads : ofExcept result state = .ok value final) : result = .ok value ∧ final = state := by
  cases result with
  | error diagnostic => cases reads
  | ok found =>
    cases reads
    exact ⟨rfl, rfl⟩

/-- A rule that succeeds has read some tokens, for which its value is good. -/
theorem exists_of_runRule {rule : Rule α} {good : List Token → α → Prop} (gives : rule.Gives good)
    {tokens : List Token} (ends : EndsInput (seen tokens)) {value : α}
    (reads : runRule rule tokens state = .ok value final) :
    ∃ read rest, seen tokens = read ++ rest ∧ good read value := by
  have nonempty := ends.ne_nil
  have ensured := gives (.facing [] (seen tokens) state.session.nesting)
    (by rw [RuleState.rest_facing nonempty]; exact ends)
  rw [runRule_eq rule nonempty] at reads
  unfold Rule.Ensures at ensured
  split at reads
  · next found last outcome =>
    cases reads
    rw [outcome] at ensured
    obtain ⟨read, moved, holds⟩ := ensured
    have whole := moved.rest
    rw [RuleState.rest_facing nonempty] at whole
    exact ⟨read, _, whole, holds⟩
  · cases reads

/-- A walk that ends with a value of its result, run on its own. -/
theorem run_map (next : α → β) (memory : μ) (session : Session) :
    run (do return next (← walk)) memory session =
      match walk ⟨session, memory⟩ with
      | .ok value final => .ok (next value) final.session
      | .error failure final => .error failure final.session := by
  show (match EStateM.bind walk (fun value => pure (next value)) ⟨session, memory⟩ with
    | .ok value (final : WalkState μ) => EStateM.Result.ok value final.session
    | .error failure final => .error failure final.session) = _
  unfold EStateM.bind
  cases walk ⟨session, memory⟩ <;> rfl

/-- A traversal that succeeds yields what it yields for each of the values. -/
theorem forall₂_of_mapM {f : α → WalkM μ β} {values : List α} {results : List β}
    (reads : values.mapM f state = .ok results final) :
    List.Forall₂ (fun value result => ∃ before behind, f value before = .ok result behind)
      values results := by
  induction values generalizing results state with
  | nil =>
    cases reads
    exact .nil
  | cons value values ih =>
    rw [List.mapM_cons] at reads
    obtain ⟨result, middle, first, reads⟩ := exists_of_bind reads
    obtain ⟨more, last, behind, reads⟩ := exists_of_bind reads
    cases reads
    exact .cons ⟨_, _, first⟩ (ih behind)

end WalkM

/-! ## Walks over sections -/

variable {μ : Type} {rule : Section → WalkM μ (List Node)} {after : μ → Section → μ}
  {resume : Section → Bool}

/-- The nodes and the diagnostics of a walk over some sections that starts with `memory`, where
`after` says what a section that is not at fault leaves to be remembered. -/
inductive Walked (rule : Section → WalkM μ (List Node)) (after : μ → Section → μ) :
    μ → List Section → List Node → List Diagnostic → Prop
  /-- There are no sections. -/
  | nil {memory : μ} : Walked rule after memory [] [] []
  /-- A section is read. -/
  | read {session : Session} {memory : μ} {part : Section} {others : List Section}
      {nodes more : List Node} {diagnostics : List Diagnostic} {next : WalkState μ}
      (sound : part.failure = none) (reads : rule part ⟨session, memory⟩ = .ok nodes next)
      (behind : Walked rule after (after memory part) others more diagnostics) :
      Walked rule after memory (part :: others) (nodes ++ more) diagnostics
  /-- A section is dropped, with others behind it. -/
  | dropped {memory later : μ} {part : Section} {below others : List Section}
      {more : List Node} {diagnostic : Diagnostic} {diagnostics : List Diagnostic}
      (recoverable : diagnostic.kind.isRecoverable = true)
      (remembers : later = memory ∨ later = after memory part)
      (behind : Walked rule after later others more diagnostics) :
      Walked rule after memory (part :: (below ++ others)) more (diagnostic :: diagnostics)

/-- A walk reports only what sections are dropped for. -/
theorem Walked.recoverable {memory : μ} {parts : List Section} {nodes : List Node}
    {diagnostics : List Diagnostic} (walked : Walked rule after memory parts nodes diagnostics) :
    ∀ diagnostic ∈ diagnostics, diagnostic.kind.isRecoverable = true := by
  induction walked with
  | nil => exact List.forall_mem_nil _
  | read _ _ _ ih => exact ih
  | dropped recoverable _ _ ih => exact List.forall_mem_cons.mpr ⟨recoverable, ih⟩

/-- What holds of the nodes of every section holds of all nodes of a walk. -/
theorem Walked.forall_mem {memory : μ} {parts : List Section} {nodes : List Node}
    {diagnostics : List Diagnostic} {good : Node → Prop}
    (walked : Walked rule after memory parts nodes diagnostics)
    (each : ∀ {part state nodes final}, rule part state = .ok nodes final →
      ∀ node ∈ nodes, good node) : ∀ node ∈ nodes, good node := by
  induction walked with
  | nil => exact List.forall_mem_nil _
  | read _ reads _ ih =>
    exact fun node member => (List.mem_append.mp member).elim (each reads node) (ih node)
  | dropped _ _ _ ih => exact ih

/-- How a walk over some sections may end, with the diagnostics that it has reported behind others:
with a failure that no section is dropped for, or with the nodes of the sections that it has
read. -/
def WalkOutcome (rule : Section → WalkM μ (List Node)) (after : μ → Section → μ) (file : String)
    (nesting : Nesting) (diagnostics : List Diagnostic) (memory : μ) (parts : List Section)
    (outcome : EStateM.Result Failure (WalkState μ) (List Node)) : Prop :=
  ∃ (reported : List Diagnostic) (events : List Event) (later : μ),
    (∀ diagnostic ∈ reported, diagnostic.kind.isRecoverable = true) ∧
    ((∃ diagnostic : Diagnostic, diagnostic.kind.isRecoverable = false ∧
      outcome = .error (.refused diagnostic)
        ⟨⟨file, nesting, diagnostics ++ reported, events⟩, later⟩) ∨
    ∃ nodes, Walked rule after memory parts nodes reported ∧
      outcome = .ok nodes ⟨⟨file, nesting, diagnostics ++ reported, events⟩, later⟩)

section

variable {file : String} {nesting : Nesting} {diagnostics : List Diagnostic} {events : List Event}
  {memory later : μ} {part : Section} {others : List Section} {diagnostic : Diagnostic}

/-- The walk goes on behind a section that succeeds. -/
theorem walkOutcome_read {nodes : List Node} (sound : part.failure = none)
    (reads : rule part ⟨⟨file, nesting, diagnostics, events⟩, memory⟩ =
      .ok nodes ⟨⟨file, nesting, diagnostics, events⟩, after memory part⟩)
    (behind : WalkOutcome rule after file nesting diagnostics (after memory part) others
      (walkSections rule resume others ⟨⟨file, nesting, diagnostics, events⟩, after memory part⟩)) :
    WalkOutcome rule after file nesting diagnostics memory (part :: others)
      (walkSections rule resume (part :: others)
        ⟨⟨file, nesting, diagnostics, events⟩, memory⟩) := by
  have whole : sectionNodes rule part ⟨⟨file, nesting, diagnostics, events⟩, memory⟩ =
      .ok nodes ⟨⟨file, nesting, diagnostics, events⟩, after memory part⟩ := by
    rw [sectionNodes, sound]
    exact reads
  rw [walkSections_of_ok whole]
  obtain ⟨reported, events', last, recoverable, ⟨diagnostic, fatal, outcome⟩ |
    ⟨more, walked, outcome⟩⟩ := behind
  · rw [outcome]
    exact ⟨reported, events', last, recoverable, .inl ⟨diagnostic, fatal, rfl⟩⟩
  · rw [outcome]
    exact ⟨reported, events', last, recoverable, .inr ⟨_, .read sound reads walked, rfl⟩⟩

/-- The walk ends with a section that fails for good. -/
theorem walkOutcome_fatal
    (reads : sectionNodes rule part ⟨⟨file, nesting, diagnostics, events⟩, memory⟩ =
      .error (.refused diagnostic) ⟨⟨file, nesting, diagnostics, events⟩, later⟩)
    (fatal : diagnostic.kind.isRecoverable = false) :
    WalkOutcome rule after file nesting diagnostics memory (part :: others)
      (walkSections rule resume (part :: others)
        ⟨⟨file, nesting, diagnostics, events⟩, memory⟩) := by
  have ends : (Failure.refused diagnostic).recoverable? = none := by
    simp [Failure.recoverable?, fatal]
  rw [walkSections_of_fatal reads ends]
  refine ⟨[], events, later, List.forall_mem_nil _,
    .inl ⟨diagnostic, fatal, ?_⟩⟩
  rw [List.append_nil]

/-- The walk goes on behind a section that fails and the sections dropped with it. -/
theorem walkOutcome_dropped
    (reads : sectionNodes rule part ⟨⟨file, nesting, diagnostics, events⟩, memory⟩ =
      .error (.refused diagnostic) ⟨⟨file, nesting, diagnostics, events⟩, later⟩)
    (recoverable : diagnostic.kind.isRecoverable = true)
    (remembers : later = memory ∨ later = after memory part)
    (behind : ∀ diagnostics events, WalkOutcome rule after file nesting diagnostics later
      (others.dropWhile (part.isBelow resume))
      (walkSections rule resume (others.dropWhile (part.isBelow resume))
        ⟨⟨file, nesting, diagnostics, events⟩, later⟩)) :
    WalkOutcome rule after file nesting diagnostics memory (part :: others)
      (walkSections rule resume (part :: others)
        ⟨⟨file, nesting, diagnostics, events⟩, memory⟩) := by
  have drops : (Failure.refused diagnostic).recoverable? = some diagnostic := by
    simp [Failure.recoverable?, recoverable]
  obtain ⟨events', reports⟩ := exists_reportDropped part diagnostic
    (others.takeWhile (part.isBelow resume)).length file nesting diagnostics events later
  rw [walkSections_of_dropped reads drops reports]
  have split : part :: others = part :: (others.takeWhile (part.isBelow resume) ++
      others.dropWhile (part.isBelow resume)) := by rw [List.takeWhile_append_dropWhile]
  obtain ⟨reported, events'', last, recoverable', ending⟩ :=
    behind (diagnostics ++ [diagnostic]) events'
  -- what is reported later stands behind the diagnostic of this section
  rw [List.append_assoc] at ending
  refine ⟨diagnostic :: reported, events'', last,
    List.forall_mem_cons.mpr ⟨recoverable, recoverable'⟩, ?_⟩
  rcases ending with ⟨diagnostic', fatal, outcome⟩ | ⟨nodes, walked, outcome⟩
  · exact .inl ⟨diagnostic', fatal, outcome⟩
  · refine .inr ⟨nodes, ?_, outcome⟩
    rw [split]
    exact .dropped recoverable remembers walked

end

/-- A walk whose sections leave the parse as it was has such an outcome. -/
theorem walkOutcome_walkSections
    (isolated : ∀ part, part.failure = none → ∀ memory,
      (rule part).Isolated memory (after memory part))
    (file : String) (nesting : Nesting) (parts : List Section)
    (faults : ∀ part ∈ parts, ∀ diagnostic, part.failure = some diagnostic →
      diagnostic.kind.isRecoverable = true)
    (memory : μ) (diagnostics : List Diagnostic) (events : List Event) :
    WalkOutcome rule after file nesting diagnostics memory parts
      (walkSections rule resume parts ⟨⟨file, nesting, diagnostics, events⟩, memory⟩) := by
  induction parts using walk_induction resume generalizing memory diagnostics events with
  | nil =>
    rw [walkSections]
    refine ⟨[], events, memory, List.forall_mem_nil _, .inr ⟨[], .nil, ?_⟩⟩
    rw [List.append_nil]
    rfl
  | cons part others inOthers inRest =>
    obtain ⟨fault, faults⟩ := List.forall_mem_cons.mp faults
    have behind := inRest fun other member => faults other ((List.dropWhile_subset _) member)
    cases failure : part.failure with
    | some diagnostic =>
      -- the rule is not asked for a section that carries a failure
      have recoverable := fault diagnostic failure
      have reads : sectionNodes rule part ⟨⟨file, nesting, diagnostics, events⟩, memory⟩ =
          .error (.refused diagnostic) ⟨⟨file, nesting, diagnostics, events⟩, memory⟩ := by
        rw [sectionNodes, failure]
        rfl
      exact walkOutcome_dropped reads recoverable (.inl rfl) (behind memory)
    | none =>
      obtain ⟨result, ends⟩ := isolated part failure memory file nesting
      cases result with
      | ok nodes =>
        exact walkOutcome_read failure (ends diagnostics events) (inOthers faults _ _ _)
      | error diagnostic =>
        have reads : sectionNodes rule part ⟨⟨file, nesting, diagnostics, events⟩, memory⟩ =
            .error (.refused diagnostic)
              ⟨⟨file, nesting, diagnostics, events⟩, after memory part⟩ := by
          rw [sectionNodes, failure]
          exact ends diagnostics events
        cases recoverable : diagnostic.kind.isRecoverable with
        | false => exact walkOutcome_fatal reads recoverable
        | true => exact walkOutcome_dropped reads recoverable (.inr rfl) (behind _)

end DocGrammar
