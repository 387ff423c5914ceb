import DocGrammar.Proofs.Documents.Run
import DocGrammar.Proofs.Rules.Limits
import Mathlib.Data.List.Forall2

/-! # Walks under two limits

A walk over the sections of a document is run twice, under a limit of nesting and under a greater
one. Unless a section is dropped because it is nested too deep, the second run does the same as the
first. The first run is also judged on its own: its nodes are good, and each of its diagnostics is
to be blamed on a section of its own, in the order of the sections.

* **`WalkM.Tracks`** — walks that do the same under a greater limit.
* **`WalkM.tracks_runRule`** — rules as walks.
* **`Sifted`** — what becomes of the sections of a document.
* **`sifted_walkSections`** — a walk whose sections do the same under both limits. -/

namespace DocGrammar

/-- The parse under another limit of nesting. -/
def Session.under (session : Session) (limit : Nat) : Session :=
  { session with nesting := session.nesting.under limit }

/-- The walk under another limit of nesting. -/
def WalkState.under {μ : Type} (state : WalkState μ) (limit : Nat) : WalkState μ :=
  { state with session := state.session.under limit }

/-- Whether a walk reads the file under the lower limit. -/
structure Limits.Admits {μ : Type} (limits : Limits) (file : String) (state : WalkState μ) :
    Prop where
  /-- It reads the file. -/
  file : state.session.file = file
  /-- Its limit is the lower one. -/
  limit : state.session.nesting.limit = limits.low

/-- A walk that leaves the parse as it was goes on reading under the same limit. -/
theorem Limits.Admits.of_session {μ : Type} {limits : Limits} {file : String}
    {state next : WalkState μ} (admits : limits.Admits file state)
    (kept : next.session = state.session) : limits.Admits file next := by
  refine ⟨?_, ?_⟩
  · rw [kept]
    exact admits.file
  · rw [kept]
    exact admits.limit

namespace WalkM

variable {μ α β : Type} {limits : Limits} {file : String} {walk : WalkM μ α} {good : α → Prop}
  {blames : Diagnostic → Prop}

/-! ## Two runs -/

/-- A walk that leaves the parse as it was, whose value is good, and whose failure is to be blamed
on something. Unless it is nested too deep, it does the same under both limits. -/
def Tracks (limits : Limits) (file : String) (walk : WalkM μ α) (good : α → Prop)
    (blames : Diagnostic → Prop) : Prop :=
  ∀ state : WalkState μ, limits.Admits file state →
    match walk state with
    | .ok value final => final.session = state.session ∧ good value ∧
        walk (state.under limits.high) = .ok value (final.under limits.high)
    | .error failure final => final.session = state.session ∧
        ∃ diagnostic, failure = .refused diagnostic ∧ blames diagnostic ∧
          (diagnostic.kind = .depth ∨
            walk (state.under limits.high) = .error failure (final.under limits.high))

theorem Tracks.mono {better : α → Prop} {worse : Diagnostic → Prop}
    (tracks : Tracks limits file walk good blames) (weaker : ∀ value, good value → better value)
    (blamed : ∀ diagnostic, blames diagnostic → worse diagnostic) :
    Tracks limits file walk better worse := by
  intro state admits
  have ensured := tracks state admits
  cases outcome : walk state with
  | ok value final =>
    rw [outcome] at ensured
    obtain ⟨kept, holds, same⟩ := ensured
    exact ⟨kept, weaker value holds, same⟩
  | error failure final =>
    rw [outcome] at ensured
    obtain ⟨kept, diagnostic, rfl, blame, behaves⟩ := ensured
    exact ⟨kept, diagnostic, rfl, blamed diagnostic blame, behaves⟩

theorem tracks_pure {value : α} (holds : good value) :
    Tracks limits file (pure value : WalkM μ α) good blames :=
  fun _ _ => ⟨rfl, holds, rfl⟩

theorem tracks_throw {diagnostic : Diagnostic} (blame : blames diagnostic) :
    Tracks limits file (throw (.refused diagnostic) : WalkM μ α) good blames :=
  fun _ _ => ⟨rfl, diagnostic, rfl, blame, .inr rfl⟩

theorem tracks_refuse {cause : Cause} {span : Span} (blame : blames ⟨cause, span⟩) :
    Tracks limits file (refuse cause span : WalkM μ α) good blames :=
  tracks_throw blame

theorem tracks_modify (change : μ → μ) :
    Tracks limits file
      (modify fun state => { state with memory := change state.memory } : WalkM μ _)
      (fun _ => True) blames :=
  fun _ _ => ⟨rfl, trivial, rfl⟩

section

variable {next : α → WalkM μ β} {wanted : β → Prop}

theorem bind_of_ok {state middle : WalkState μ} {value : α} (runs : walk state = .ok value middle) :
    (walk >>= next) state = next value middle := by
  show EStateM.bind walk next state = _
  unfold EStateM.bind
  rw [runs]

theorem bind_of_error {state final : WalkState μ} {failure : Failure}
    (runs : walk state = .error failure final) : (walk >>= next) state = .error failure final := by
  show EStateM.bind walk next state = _
  unfold EStateM.bind
  rw [runs]

theorem Tracks.bind (first : Tracks limits file walk good blames)
    (second : ∀ value, good value → Tracks limits file (next value) wanted blames) :
    Tracks limits file (walk >>= next) wanted blames := by
  intro state admits
  have ensured := first state admits
  cases outcome : walk state with
  | error failure final =>
    rw [outcome] at ensured
    rw [bind_of_error outcome]
    obtain ⟨kept, diagnostic, rfl, blame, behaves⟩ := ensured
    exact ⟨kept, diagnostic, rfl, blame, behaves.imp_right bind_of_error⟩
  | ok value middle =>
    rw [outcome] at ensured
    obtain ⟨kept, holds, same⟩ := ensured
    -- the second part starts with the same parse as the first one
    rw [bind_of_ok outcome, bind_of_ok same, ← kept]
    exact second value holds middle (admits.of_session kept)

theorem Tracks.ite {condition : Prop} [Decidable condition] {other : WalkM μ α}
    (yes : condition → Tracks limits file walk good blames)
    (no : ¬condition → Tracks limits file other good blames) :
    Tracks limits file (if condition then walk else other) good blames := by
  by_cases holds : condition
  · rw [if_pos holds]
    exact yes holds
  · rw [if_neg holds]
    exact no holds

/-- A refusal has no value, so that nothing follows it. -/
theorem tracks_refuse_bind {cause : Cause} {span : Span} (blame : blames ⟨cause, span⟩) :
    Tracks limits file ((refuse cause span : WalkM μ α) >>= next) wanted blames :=
  (tracks_refuse blame).bind fun _ => False.elim

/-- What follows the name of the file is judged for that file. -/
theorem tracks_file_bind {next : String → WalkM μ β}
    (tracks : Tracks limits file (next file) wanted blames) :
    Tracks limits file (WalkM.file >>= next) wanted blames := by
  rintro state admits
  obtain rfl := admits.file
  exact tracks state admits

/-- What follows a computation that may be refused is judged for its value. -/
theorem tracks_ofExcept_bind {result : Except Diagnostic α}
    (blame : ∀ diagnostic, result = .error diagnostic → blames diagnostic)
    (tracks : ∀ value, result = .ok value → Tracks limits file (next value) wanted blames) :
    Tracks limits file (ofExcept result >>= next) wanted blames := by
  cases result with
  | error diagnostic => exact (tracks_throw (blame diagnostic rfl)).bind fun _ => False.elim
  | ok value => exact tracks value rfl

end

/-- A traversal tracks what it does for each of the values. -/
theorem tracks_mapM {f : α → WalkM μ β} {wanted : β → Prop} {values : List α}
    (each : ∀ value ∈ values, Tracks limits file (f value) wanted blames) :
    Tracks limits file (values.mapM f) (Rule.All wanted) blames := by
  induction values with
  | nil => exact tracks_pure Rule.All.nil
  | cons value values ih =>
    obtain ⟨first, others⟩ := List.forall_mem_cons.mp each
    rw [List.mapM_cons]
    refine first.bind fun result holds => (ih others).bind fun results hold => ?_
    exact tracks_pure (List.forall_mem_cons.mpr ⟨holds, hold⟩)

/-- A rule that makes progress, run on tokens that end with the input, is blamed on one of them. -/
theorem tracks_runRule {rule : Rule α} {least : α → Nat} {tokens : List Token}
    (steady : Rule.Steady ⟨limits, seen tokens⟩ rule good) (takes : rule.Takes least)
    (ends : EndsInput (seen tokens)) :
    Tracks limits file (runRule rule tokens : WalkM μ α) good
      fun diagnostic => ∃ token ∈ seen tokens, diagnostic.span = token.span := by
  rintro ⟨⟨name, nesting, diagnostics, events⟩, memory⟩ admits
  have nonempty := ends.ne_nil
  obtain ⟨first, others, kept⟩ := List.exists_cons_of_ne_nil nonempty
  have start : TokenLimits.Admits ⟨limits, seen tokens⟩ (.facing [] (seen tokens) nesting) := by
    refine ⟨?_, ?_⟩
    · rw [kept]
      rfl
    · rw [RuleState.nesting_facing]
      exact admits.limit
  have raised : (RuleState.facing [] (seen tokens) nesting).under limits.high =
      .facing [] (seen tokens) (nesting.under limits.high) := by
    rw [kept]
    rfl
  -- one run of the rule is both steady and making progress
  have tracked := steady _ start
  have taken := takes (.facing [] (seen tokens) nesting)
    (by rw [RuleState.rest_facing nonempty]; exact ends)
  rw [raised] at tracked
  unfold Rule.Ensures at tracked taken
  rw [runRule_eq rule nonempty, runRule_eq rule nonempty]
  simp only [WalkState.under, Session.under]
  cases outcome : rule (.facing [] (seen tokens) nesting) with
  | ok value final =>
    rw [outcome] at tracked taken
    obtain ⟨_, holds, same⟩ := tracked
    obtain ⟨_, moved, _⟩ := taken
    have left : final.nesting = nesting := moved.nesting.trans RuleState.nesting_facing
    rw [same]
    exact ⟨by simp only [left], holds, rfl⟩
  | error failure final =>
    rw [outcome] at tracked taken
    obtain ⟨_, blame, behaves⟩ := tracked
    obtain ⟨left, cause, span, rfl, _⟩ := taken
    rw [RuleState.nesting_facing] at left
    refine ⟨by simp only [left], ⟨cause, span⟩, rfl, blame, behaves.imp_right fun same => ?_⟩
    rw [same]
    rfl

end WalkM

/-! ## Walks over sections -/

section

variable {μ : Type} {limits : Limits} {file : String} {rule : Section → WalkM μ (List Node)}
  {resume : Section → Bool} {good : Node → Prop} {blames : Section → Diagnostic → Prop}
  {part : Section} {others : List Section} {diagnostic : Diagnostic} {state next : WalkState μ}

/-- The walk behind a section that is dropped with some others. -/
def WalkState.dropping (state : WalkState μ) (part : Section) (diagnostic : Diagnostic)
    (dropped : Nat) : WalkState μ :=
  let reported := state.session.report diagnostic
  { state with
    session := if dropped = 0 then reported else reported.log (.skipping dropped part.title) }

theorem reportDropped_eq (part : Section) (diagnostic : Diagnostic) (dropped : Nat)
    (state : WalkState μ) : reportDropped part diagnostic dropped state =
      .ok () (state.dropping part diagnostic dropped) := rfl

theorem WalkState.under_dropping (dropped limit : Nat) :
    (state.under limit).dropping part diagnostic dropped =
      (state.dropping part diagnostic dropped).under limit := by
  by_cases none : dropped = 0
  · simp only [dropping, if_pos none]
    rfl
  · simp only [dropping, if_neg none]
    rfl

theorem WalkState.diagnostics_dropping (dropped : Nat) :
    (state.dropping part diagnostic dropped).session.diagnostics =
      state.session.diagnostics ++ [diagnostic] := by
  by_cases none : dropped = 0
  · simp only [dropping, if_pos none]
    rfl
  · simp only [dropping, if_neg none]
    rfl

theorem Limits.Admits.dropping (admits : limits.Admits file state) (dropped : Nat) :
    limits.Admits file (state.dropping part diagnostic dropped) := by
  by_cases none : dropped = 0
  · simp only [WalkState.dropping, if_pos none]
    exact ⟨admits.file, admits.limit⟩
  · simp only [WalkState.dropping, if_neg none]
    exact ⟨admits.file, admits.limit⟩

/-- What a walk over some sections does from a state on. The diagnostics that it adds, the one that
ends it included, are to be blamed on some of the sections in turn. Its nodes are good. Unless a
diagnostic is one of too deep nesting, the walk does the same under both limits. -/
def Sifted (limits : Limits) (good : Node → Prop) (blames : Section → Diagnostic → Prop)
    (parts : List Section) (walk : WalkM μ (List Node)) (state : WalkState μ) : Prop :=
  ∃ (failing : List Section) (added : List Diagnostic),
    failing.Sublist parts ∧ List.Forall₂ blames failing added ∧
    match walk state with
    | .ok nodes final =>
        final.session.diagnostics = state.session.diagnostics ++ added ∧ Rule.All good nodes ∧
        ((∃ diagnostic ∈ added, diagnostic.kind = .depth) ∨
          walk (state.under limits.high) = .ok nodes (final.under limits.high))
    | .error failure final =>
        ∃ last, failure = .refused last ∧
        final.session.diagnostics ++ [last] = state.session.diagnostics ++ added ∧
        ((∃ diagnostic ∈ added, diagnostic.kind = .depth) ∨
          walk (state.under limits.high) = .error failure (final.under limits.high))

theorem sifted_nil (state : WalkState μ) :
    Sifted limits good blames [] (walkSections rule resume []) state := by
  refine ⟨[], [], List.Sublist.slnil, .nil, ?_⟩
  rw [walkSections]
  exact ⟨(List.append_nil _).symm, Rule.All.nil, .inr rfl⟩

/-- A section that is read adds its nodes. -/
theorem sifted_read {nodes : List Node} (reads : sectionNodes rule part state = .ok nodes next)
    (kept : next.session = state.session) (holds : Rule.All good nodes)
    (same : sectionNodes rule part (state.under limits.high) = .ok nodes (next.under limits.high))
    (behind : Sifted limits good blames others (walkSections rule resume others) next) :
    Sifted limits good blames (part :: others) (walkSections rule resume (part :: others))
      state := by
  obtain ⟨failing, added, sublist, blamed, ends⟩ := behind
  refine ⟨failing, added, sublist.cons part, blamed, ?_⟩
  rw [walkSections_of_ok reads, walkSections_of_ok same]
  rw [kept] at ends
  cases outcome : walkSections rule resume others next with
  | ok more final =>
    rw [outcome] at ends
    obtain ⟨diagnostics, hold, behaves⟩ := ends
    refine ⟨diagnostics, List.forall_mem_append.mpr ⟨holds, hold⟩, behaves.imp_right fun same => ?_⟩
    rw [same]
  | error failure final =>
    rw [outcome] at ends
    obtain ⟨last, rfl, diagnostics, behaves⟩ := ends
    refine ⟨last, rfl, diagnostics, behaves.imp_right fun same => ?_⟩
    rw [same]

/-- A section that fails for good ends the walk. -/
theorem sifted_fatal (reads : sectionNodes rule part state = .error (.refused diagnostic) next)
    (kept : next.session = state.session) (blame : blames part diagnostic)
    (behaves : diagnostic.kind = .depth ∨ sectionNodes rule part (state.under limits.high) =
      .error (.refused diagnostic) (next.under limits.high))
    (fatal : diagnostic.kind.isRecoverable = false) :
    Sifted limits good blames (part :: others) (walkSections rule resume (part :: others))
      state := by
  have ends : (Failure.refused diagnostic).recoverable? = none := by
    simp [Failure.recoverable?, fatal]
  refine ⟨[part], [diagnostic], List.singleton_sublist.mpr List.mem_cons_self,
    .cons blame .nil, ?_⟩
  rw [walkSections_of_fatal reads ends]
  refine ⟨diagnostic, rfl, by rw [kept], behaves.imp (fun depth => ?_) fun same => ?_⟩
  · exact ⟨diagnostic, List.mem_singleton_self _, depth⟩
  · rw [walkSections_of_fatal same ends]

/-- A section that is dropped adds its diagnostic, and the walk goes on behind it. -/
theorem sifted_dropped (reads : sectionNodes rule part state = .error (.refused diagnostic) next)
    (kept : next.session = state.session) (blame : blames part diagnostic)
    (behaves : diagnostic.kind = .depth ∨ sectionNodes rule part (state.under limits.high) =
      .error (.refused diagnostic) (next.under limits.high))
    (recoverable : diagnostic.kind.isRecoverable = true)
    (behind : Sifted limits good blames (others.dropWhile (part.isBelow resume))
      (walkSections rule resume (others.dropWhile (part.isBelow resume)))
      (next.dropping part diagnostic (others.takeWhile (part.isBelow resume)).length)) :
    Sifted limits good blames (part :: others) (walkSections rule resume (part :: others))
      state := by
  have drops : (Failure.refused diagnostic).recoverable? = some diagnostic := by
    simp [Failure.recoverable?, recoverable]
  obtain ⟨failing, added, sublist, blamed, ends⟩ := behind
  refine ⟨part :: failing, diagnostic :: added,
    (sublist.trans (List.dropWhile_sublist _)).cons_cons part, .cons blame blamed, ?_⟩
  rw [walkSections_of_dropped reads drops (reportDropped_eq _ _ _ _)]
  -- a section that is nested too deep decides the matter, and otherwise the runs go on alike
  have onward : ∀ outcome,
      ((∃ other ∈ added, other.kind = .depth) ∨
        walkSections rule resume (others.dropWhile (part.isBelow resume))
          ((next.dropping part diagnostic
            (others.takeWhile (part.isBelow resume)).length).under limits.high) = outcome) →
      (∃ other ∈ diagnostic :: added, other.kind = .depth) ∨
        walkSections rule resume (part :: others) (state.under limits.high) = outcome := by
    rintro outcome (⟨other, member, depth⟩ | same)
    · exact .inl ⟨other, List.mem_cons_of_mem _ member, depth⟩
    · refine behaves.imp (fun depth => ⟨diagnostic, List.mem_cons_self, depth⟩) fun alike => ?_
      rw [walkSections_of_dropped alike drops (reportDropped_eq _ _ _ _),
        WalkState.under_dropping, same]
  rw [WalkState.diagnostics_dropping, kept, List.append_assoc] at ends
  cases outcome : walkSections rule resume (others.dropWhile (part.isBelow resume))
      (next.dropping part diagnostic (others.takeWhile (part.isBelow resume)).length) with
  | ok more final =>
    rw [outcome] at ends
    obtain ⟨diagnostics, hold, rest⟩ := ends
    exact ⟨diagnostics, hold, onward _ rest⟩
  | error failure final =>
    rw [outcome] at ends
    obtain ⟨last, rfl, diagnostics, rest⟩ := ends
    exact ⟨last, rfl, diagnostics, onward _ rest⟩

/-- A walk whose sections do the same under both limits. -/
theorem sifted_walkSections (parts : List Section)
    (each : ∀ part ∈ parts,
      (sectionNodes rule part).Tracks limits file (Rule.All good) (blames part))
    (admits : limits.Admits file state) :
    Sifted limits good blames parts (walkSections rule resume parts) state := by
  induction parts using walk_induction resume generalizing state with
  | nil => exact sifted_nil state
  | cons part others inOthers inRest =>
    obtain ⟨first, later⟩ := List.forall_mem_cons.mp each
    have ensured := first state admits
    cases reads : sectionNodes rule part state with
    | ok nodes next =>
      rw [reads] at ensured
      obtain ⟨kept, holds, same⟩ := ensured
      exact sifted_read reads kept holds same (inOthers later (admits.of_session kept))
    | error failure next =>
      rw [reads] at ensured
      obtain ⟨kept, diagnostic, rfl, blame, behaves⟩ := ensured
      cases recoverable : diagnostic.kind.isRecoverable with
      | false => exact sifted_fatal reads kept blame behaves recoverable
      | true =>
        -- behind a dropped section the walk goes on in the rest, with one more diagnostic
        refine sifted_dropped reads kept blame behaves recoverable ?_
        exact inRest (fun other member => later other (List.dropWhile_subset _ member))
          ((admits.of_session kept).dropping _)

end

end DocGrammar
