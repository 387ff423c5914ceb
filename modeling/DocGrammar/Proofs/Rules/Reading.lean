import DocGrammar.Proofs.Rules.Outcome

/-! # What rules read

The converse of what rules yield: on tokens that are known, a rule reads exactly those that it
should and succeeds.

* **`RuleState.facing`** — the state before some tokens.
* **`Rule.Reads`** — with enough room, a rule that faces some tokens and others behind them reads
  the former, and its value is good.
* **`Rule.LoopReads`** — the same of a repetition, whatever number of rounds it has left. -/

namespace DocGrammar

/-! ## States that face known tokens -/

namespace RuleState

/-- The state before some tokens, of which there has to be one. -/
def facing (before tokens : List Token) (nesting : Nesting) : RuleState :=
  match tokens with
  | [] => ⟨⟨before, default, []⟩, nesting⟩
  | current :: after => ⟨⟨before, current, after⟩, nesting⟩

variable {before tokens more : List Token} {token next : Token} {nesting : Nesting}

@[simp] theorem current_facing : (facing before (token :: more) nesting).cursor.current = token :=
  rfl

@[simp] theorem nesting_facing : (facing before tokens nesting).nesting = nesting := by
  cases tokens <;> rfl

@[simp] theorem before_facing : (facing before tokens nesting).cursor.before = before := by
  cases tokens <;> rfl

@[simp] theorem rest_facing (nonempty : tokens ≠ []) :
    (facing before tokens nesting).cursor.rest = tokens := by
  cases tokens with
  | nil => exact absurd rfl nonempty
  | cons current after => rfl

@[simp] theorem advanced_facing (nonempty : more ≠ []) :
    (facing before (token :: more) nesting).advanced = facing (token :: before) more nesting := by
  cases more with
  | nil => exact absurd rfl nonempty
  | cons current after => rfl

@[simp] theorem peek_facing :
    (facing before (token :: next :: more) nesting).cursor.peek 1 = next := rfl

@[simp] theorem previous_facing :
    (facing (token :: before) tokens nesting).cursor.previous = token := by
  cases tokens <;> rfl

/-- A level less of room. -/
theorem enter?_facing {room : Nat} (enough : room + 1 ≤ nesting.room) :
    ∃ deeper, nesting.enter? = some deeper ∧ room ≤ deeper.room := by
  cases entered : nesting.enter? with
  | none =>
    have full := (Nesting.enter?_eq_none_iff nesting).mp entered
    omega
  | some deeper =>
    have one := Nesting.room_of_enter? entered
    exact ⟨deeper, rfl, by omega⟩

end RuleState

/-! ## Reading -/

namespace Rule

variable {α β : Type}

/-- With at least `room` levels left, a rule that faces the tokens `read` and some tokens `rest`
behind them reads `read` and yields a good value. -/
def Reads (rule : Rule α) (room : Nat) (read rest : List Token) (good : α → Prop) : Prop :=
  rest ≠ [] → ∀ before nesting, room ≤ nesting.room →
    rule.Ensures (.facing before (read ++ rest) nesting)
      (fun value final => good value ∧ final = .facing (read.reverse ++ before) rest nesting)
      (fun _ _ => False)

variable {rule : Rule α} {room : Nat} {read more rest : List Token} {good good' : α → Prop}

/-- What a rule reads it also reads with more room, and its value is also good in a weaker
sense. -/
theorem Reads.mono {less : Nat} (reads : rule.Reads less read rest good) (enough : less ≤ room)
    (weaker : ∀ value, good value → good' value) : rule.Reads room read rest good' := by
  intro nonempty before nesting room
  refine (reads nonempty before nesting (Nat.le_trans enough room)).mono ?_ fun _ _ fault => fault
  rintro value final ⟨holds, rfl⟩
  exact ⟨weaker value holds, rfl⟩

/-- A rule that reads its tokens may be used wherever it faces them. -/
theorem Reads.ensures (reads : rule.Reads room read rest good) (nonempty : rest ≠ [])
    {before : List Token} {nesting : Nesting} (enough : room ≤ nesting.room)
    {post : α → RuleState → Prop} {fails : Failure → RuleState → Prop}
    (posts : ∀ value, good value → post value (.facing (read.reverse ++ before) rest nesting)) :
    rule.Ensures (.facing before (read ++ rest) nesting) post fails := by
  refine (reads nonempty before nesting enough).mono ?_ fun _ _ fault => fault.elim
  rintro value final ⟨holds, rfl⟩
  exact posts value holds

/-- A rule that reads its tokens succeeds. -/
theorem Reads.exists_ok (reads : rule.Reads room read rest good) (nonempty : rest ≠ [])
    (before : List Token) (nesting : Nesting) (enough : room ≤ nesting.room) :
    ∃ value, good value ∧ rule (.facing before (read ++ rest) nesting) =
      .ok value (.facing (read.reverse ++ before) rest nesting) := by
  have ensured := reads nonempty before nesting enough
  unfold Ensures at ensured
  split at ensured
  · next value final outcome =>
    obtain ⟨holds, rfl⟩ := ensured
    exact ⟨value, holds, outcome⟩
  · exact ensured.elim

/-- A sequence reads what its parts read one after the other. -/
theorem Reads.bind {next : α → Rule β} {later : β → Prop}
    (first : rule.Reads room read (more ++ rest) good)
    (second : ∀ value, good value → (next value).Reads room more rest later) :
    (rule >>= next).Reads room (read ++ more) rest later := by
  intro nonempty before nesting enough
  rw [ensures_bind, List.append_assoc]
  have behind : more ++ rest ≠ [] := by simp [nonempty]
  refine first.ensures behind enough fun value holds => ?_
  rw [List.reverse_append, List.append_assoc]
  exact second value holds nonempty _ nesting enough

/-- A nested rule needs a level more than its body. -/
theorem Reads.nested (reads : rule.Reads room read rest good) :
    (Rule.nested rule).Reads (room + 1) read rest good := by
  intro nonempty before nesting enough
  obtain ⟨deeper, entered, left⟩ := RuleState.enter?_facing enough
  obtain ⟨value, holds, outcome⟩ := reads.exists_ok nonempty before deeper left
  have faced : ∀ (tokens : List Token) (before : List Token) (nesting other : Nesting),
      { RuleState.facing before tokens nesting with nesting := other } =
        RuleState.facing before tokens other := by
    intro tokens before nesting other
    cases tokens <;> rfl
  unfold Ensures Rule.nested
  rw [RuleState.nesting_facing, entered]
  simp only [faced]
  rw [outcome]
  refine ⟨holds, ?_⟩
  rw [RuleState.nesting_facing, Nesting.leave_of_enter? entered, faced]

/-! ## Skipping -/

/-- Skipping reads a run of tokens of the given kinds. -/
theorem reads_skip {kinds : List TokenKind} (members : ∀ token ∈ read, token.kind ∈ kinds)
    (stop : ∀ token ∈ rest.head?, token.kind ∉ kinds) :
    (skip kinds).Reads room read rest fun _ => True := by
  intro nonempty before nesting _
  refine ⟨trivial, ?_⟩
  obtain ⟨next, others, rfl⟩ := List.exists_cons_of_ne_nil nonempty
  have other : next.kind ∉ kinds := stop next rfl
  -- by the tokens that are skipped, for any tokens before them, which the run moves back
  have runs : ∀ before, ∃ current after, read ++ next :: others = current :: after ∧
      Cursor.skipRun kinds before current after = ⟨read.reverse ++ before, next, others⟩ := by
    induction read with
    | nil =>
      intro before
      refine ⟨next, others, rfl, ?_⟩
      cases others with
      | nil => rfl
      | cons second more => rw [Cursor.skipRun, if_neg other]; rfl
    | cons token read ih =>
      intro before
      obtain ⟨current, after, tokens, run⟩ :=
        ih (fun token member => members token (List.mem_cons_of_mem _ member)) (token :: before)
      refine ⟨token, current :: after, by rw [List.cons_append, tokens], ?_⟩
      rw [Cursor.skipRun, if_pos (members token List.mem_cons_self), run]
      simp
  obtain ⟨current, after, tokens, run⟩ := runs before
  rw [tokens]
  show ({ cursor := Cursor.skipRun kinds before current after, nesting } : RuleState) = _
  rw [run]
  rfl

/-- Where no token of the given kinds stands, skipping reads nothing. -/
theorem reads_skip_none {kinds : List TokenKind} (stop : ∀ token ∈ rest.head?, token.kind ∉ kinds) :
    (skip kinds).Reads room [] rest fun _ => True :=
  reads_skip (List.forall_mem_nil _) stop

/-! ## Repetition -/

/-- What a round that others follow has to fulfil. -/
def Round.IsAgain (good : α → Prop) : Round α β → Prop
  | .again value => good value
  | .done _ => False

/-- What the last round has to fulfil. -/
def Round.IsDone (good : β → Prop) : Round α β → Prop
  | .again _ => False
  | .done result => good result

/-- A repetition that faces the tokens `read` and some tokens `rest` behind them reads `read`,
whatever number of rounds it has left, provided that it is more than the number of tokens. -/
def LoopReads (round : α → Rule (Round α β)) (value : α) (room : Nat) (read rest : List Token)
    (good : β → Prop) : Prop :=
  ∀ rounds, (read ++ rest).length < rounds → (iterate round rounds value).Reads room read rest good

variable {round : α → Rule (Round α β)} {value : α} {last : β → Prop}

/-- The last round of a repetition. -/
theorem LoopReads.done (reads : (round value).Reads room read rest (Round.IsDone last)) :
    LoopReads round value room read rest last := by
  intro rounds enough
  cases rounds with
  | zero => exact absurd enough (Nat.not_lt_zero _)
  | succ rounds =>
    intro nonempty before nesting left
    rw [iterate, ensures_bind]
    refine reads.ensures nonempty left fun outcome holds => ?_
    cases outcome with
    | again next => exact holds.elim
    | done result => exact ⟨holds, rfl⟩

/-- A round of a repetition that others follow. -/
theorem LoopReads.again (read : List Token)
    (first : (round value).Reads room read (more ++ rest) (Round.IsAgain good))
    (consumes : read ≠ [])
    (others : ∀ next, good next → LoopReads round next room more rest last) :
    LoopReads round value room (read ++ more) rest last := by
  intro rounds enough
  cases rounds with
  | zero => exact absurd enough (Nat.not_lt_zero _)
  | succ rounds =>
    intro nonempty before nesting left
    rw [iterate, ensures_bind, List.append_assoc]
    have behind : more ++ rest ≠ [] := by simp [nonempty]
    -- a round takes a token, so the rounds that are left outnumber the tokens behind it
    have shorter : (more ++ rest).length < rounds := by
      have positive := List.length_pos_iff.mpr consumes
      simp only [List.length_append] at enough ⊢
      omega
    refine first.ensures behind left fun outcome holds => ?_
    cases outcome with
    | done result => exact holds.elim
    | again next =>
      rw [List.reverse_append, List.append_assoc]
      exact others next holds rounds shorter nonempty _ nesting left

/-- What a repetition reads may be asked less of. -/
theorem LoopReads.mono {wider : β → Prop} (reads : LoopReads round value room read rest last)
    (weaker : ∀ result, last result → wider result) :
    LoopReads round value room read rest wider :=
  fun rounds enough => (reads rounds enough).mono (Nat.le_refl _) weaker

/-- A repetition has more rounds than there are tokens. -/
theorem LoopReads.loop (reads : LoopReads round value room read rest last) :
    (Rule.loop round value).Reads room read rest last := by
  intro nonempty before nesting left
  rw [Rule.loop, ensures_bind, ensures_get]
  refine reads _ ?_ nonempty before nesting left
  have faced : (read ++ rest) ≠ [] := by simp [nonempty]
  obtain ⟨current, after, tokens⟩ := List.exists_cons_of_ne_nil faced
  rw [tokens]
  show after.length + 1 < after.length + 2
  omega

end Rule

end DocGrammar
