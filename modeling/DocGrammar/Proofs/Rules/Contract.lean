import DocGrammar.Proofs.Rules.Progress

/-! # Contracts of rules

The contract of a rule says what is good about its value and the tokens that it read. It fails, if
it does, with an error that a section can be dropped for, and never runs out of rounds. Contracts
are composed from left to right: what follows a rule is judged for the tokens that it has read.

* **`Rule.Gives`** — the contract of a rule.
* **`Rule.GivesFrom`** — the same where the current token is known.
* **`Rule.GivesUpTo`** — the same with a token of a kind in front of which the rule stops.
* **`Rule.gives_loop`** — a repetition whose rounds keep an invariant. -/

namespace DocGrammar

namespace Rule

variable {α β : Type}

/-- A rule that succeeds has read some tokens, for which its value is good; one that fails can be
recovered from. -/
def Gives (rule : Rule α) (good : List Token → α → Prop) : Prop :=
  rule.Yields Cause.Recoverable fun _ => good

/-- What a rule gives where `token` is the current token. -/
def GivesFrom (token : Token) (rule : Rule α) (good : List Token → α → Prop) : Prop :=
  ∀ state, EndsInput state.cursor.rest → state.cursor.current = token →
    rule.Ensures state
      (fun value final => ∃ read, state.Passes read final ∧ good read value)
      (state.Faults Cause.Recoverable)

/-- What a rule gives that stops in front of a token of kind `close`. -/
def GivesUpTo (close : TokenKind) (rule : Rule α) (good : List Token → α → Prop) : Prop :=
  ∀ state, EndsInput state.cursor.rest →
    rule.Ensures state
      (fun value final => final.cursor.current.kind = close ∧
        ∃ read, state.Passes read final ∧ good read value)
      (state.Faults Cause.Recoverable)

variable {rule : Rule α} {token : Token} {kind close : TokenKind}
  {good weak : List Token → α → Prop}
  {later : List Token → β → Prop}

theorem Gives.from (gives : rule.Gives good) (token : Token) : rule.GivesFrom token good :=
  fun state ends _ => gives state ends

theorem gives_of_from (gives : ∀ token, rule.GivesFrom token good) : rule.Gives good :=
  fun state ends => gives state.cursor.current state ends rfl

theorem GivesFrom.mono (gives : rule.GivesFrom token good)
    (weaker : ∀ read value, good read value → weak read value) : rule.GivesFrom token weak := by
  intro state ends current
  refine (gives state ends current).mono ?_ fun _ _ fault => fault
  rintro value final ⟨read, moved, holds⟩
  exact ⟨read, moved, weaker read value holds⟩

theorem Gives.mono (gives : rule.Gives good)
    (weaker : ∀ read value, good read value → weak read value) :
    rule.Gives weak :=
  Yields.mono gives fun _ => weaker

/-- A rule whose value is good for some tokens at least takes as many. -/
theorem Gives.takes (gives : rule.Gives good) {least : α → Nat}
    (enough : ∀ read value, good read value → least value ≤ read.length) : rule.Takes least :=
  gives.mono enough

/-! ## Sequences -/

/-- What follows a rule is judged for the tokens that the rule has read. -/
theorem GivesFrom.bind {next : α → Rule β} (first : rule.GivesFrom token good)
    (second : ∀ value read, good read value →
      (next value).Gives fun more result => later (read ++ more) result) :
    (rule >>= next).GivesFrom token later := by
  intro state ends current
  rw [ensures_bind]
  refine (first state ends current).mono ?_ fun _ _ fault => fault
  rintro value middle ⟨read, moved, holds⟩
  refine Yields.ensures (second value read holds) ends moved ?_
  intro result final more whole _ holds'
  exact ⟨read ++ more, whole, holds'⟩

theorem Gives.bind {next : α → Rule β} (first : rule.Gives good)
    (second : ∀ value read, good read value →
      (next value).Gives fun more result => later (read ++ more) result) :
    (rule >>= next).Gives later :=
  gives_of_from fun token => (first.from token).bind second

/-- A rule that stops in front of a closing token is followed by what is judged with that token
read. -/
theorem GivesUpTo.advance {next : α → Token → Rule β} (first : rule.GivesUpTo close good)
    (inner : close ≠ .endOfInput)
    (second : ∀ value read stop, good read value → stop.kind = close →
      (next value stop).Gives fun more result => later (read ++ ([stop] ++ more)) result) :
    (rule >>= fun value => Rule.advance >>= next value).Gives later := by
  intro state ends
  rw [ensures_bind]
  refine (first state ends).mono ?_ fun _ _ fault => fault
  rintro value middle ⟨closing, read, moved, holds⟩
  rw [ensures_bind, ensures_advance]
  have moved' := moved.advanced ends closing inner
  refine Yields.ensures (second value read _ holds closing) ends moved' ?_
  intro result final more path _ holds'
  exact ⟨read ++ [middle.cursor.current] ++ more, path, List.append_assoc _ _ _ ▸ holds'⟩

theorem GivesUpTo.gives (gives : rule.GivesUpTo close good) : rule.Gives good := by
  intro state ends
  exact (gives state ends).mono (fun _ _ ⟨_, holds⟩ => holds) fun _ _ fault => fault

/-- A rule that stops in front of a closing token may stand behind another rule. -/
theorem Gives.bindUpTo {next : α → Rule β} (first : rule.Gives good)
    (second : ∀ value read, good read value →
      (next value).GivesUpTo close fun more result => later (read ++ more) result) :
    (rule >>= next).GivesUpTo close later := by
  intro state ends
  rw [ensures_bind]
  refine (first state ends).mono ?_ fun _ _ fault => fault
  rintro value middle ⟨read, moved, holds⟩
  refine (second value read holds middle (moved.endsInput ends)).mono ?_ fun _ _ fault =>
    fault.of_passes moved
  rintro result final ⟨closing, more, moved', holds'⟩
  exact ⟨closing, read ++ more, moved.trans moved', holds'⟩

theorem gives_pure {value : α} (holds : good [] value) : (pure value : Rule α).Gives good :=
  yields_pure fun _ => holds

/-- What follows a value is judged for that value. -/
theorem gives_pure_bind {value : α} {next : α → Rule β} (gives : (next value).Gives later) :
    ((pure value : Rule α) >>= next).Gives later := by
  rwa [pure_bind]

/-! ## Failing -/

theorem gives_refuse {cause : Cause} (recoverable : cause.Recoverable) (span : Span) :
    (refuse cause span : Rule α).Gives good :=
  fun _ _ => RuleState.faults_refused _ recoverable

theorem gives_unexpected (token : Token) (wanted : List String) :
    (unexpected token wanted : Rule α).Gives good := by
  have recoverable : (Cause.unexpectedToken token.kind token.value wanted).Recoverable := rfl
  exact gives_refuse recoverable _

/-- Nothing follows a rule that is refused. -/
theorem gives_refuse_bind {cause : Cause} (recoverable : cause.Recoverable) (span : Span)
    (next : α → Rule β) : ((refuse cause span : Rule α) >>= next).Gives later := by
  have never : (refuse cause span : Rule α).Gives fun _ _ => False := gives_refuse recoverable span
  exact never.bind fun _ _ no => no.elim

theorem gives_unexpected_bind (token : Token) (wanted : List String) (next : α → Rule β) :
    ((unexpected token wanted : Rule α) >>= next).Gives later := by
  have never : (unexpected token wanted : Rule α).Gives fun _ _ => False :=
    gives_unexpected token wanted
  exact never.bind fun _ _ no => no.elim

theorem gives_tooDeep : (tooDeep : Rule α).Gives good := by
  intro state _
  rw [ensures_tooDeep]
  have recoverable : (Cause.tooDeep state.nesting.limit).Recoverable := rfl
  exact RuleState.faults_refused _ recoverable

/-! ## Looking at tokens -/

/-- What follows a look at the current token is judged for that token. -/
theorem givesFrom_current {next : Token → Rule α} (gives : (next token).GivesFrom token good) :
    (current >>= next).GivesFrom token good := by
  intro state ends found
  rw [ensures_bind, ensures_current, found]
  exact gives state ends found

theorem gives_current {next : Token → Rule α}
    (gives : ∀ token, (next token).GivesFrom token good) : (current >>= next).Gives good :=
  gives_of_from fun token => givesFrom_current (gives token)

theorem givesFrom_isAt {next : Bool → Rule α}
    (gives : (next (token.kind = kind)).GivesFrom token good) :
    (isAt kind >>= next).GivesFrom token good := by
  intro state ends found
  rw [ensures_bind, ensures_isAt, found]
  exact gives state ends found

/-- What follows a look ahead is judged for any token that may stand there. -/
theorem givesFrom_peek {next : Token → Rule α} {distance : Nat}
    (gives : ∀ ahead, (next ahead).GivesFrom token good) :
    (peek distance >>= next).GivesFrom token good := by
  intro state ends found
  rw [ensures_bind, ensures_peek]
  exact gives _ state ends found

theorem GivesFrom.ite {condition : Prop} [Decidable condition] {first second : Rule α}
    (yes : condition → first.GivesFrom token good)
    (no : ¬condition → second.GivesFrom token good) :
    (if condition then first else second : Rule α).GivesFrom token good := by
  split
  · next holds => exact yes holds
  · next fails => exact no fails

theorem givesFrom_isAtAny {next : Bool → Rule α} {kinds : List TokenKind}
    (gives : (next (token.kind ∈ kinds)).GivesFrom token good) :
    (isAtAny kinds >>= next).GivesFrom token good := by
  intro state ends found
  rw [ensures_bind, ensures_isAtAny, found]
  exact gives state ends found

/-- What follows a look at the room that is left is judged for any room. -/
theorem gives_room {next : Nat → Rule α} (gives : ∀ levels, (next levels).Gives good) :
    (room >>= next).Gives good := by
  intro state ends
  rw [ensures_bind, ensures_room]
  exact gives _ state ends

/-- Behind a rule that has read tokens, the token before the current one is the last of them. -/
theorem Gives.previous {next : α → Token → Rule β} (first : rule.Gives good)
    (nonempty : ∀ read value, good read value → read ≠ [])
    (second : ∀ value before last, good (before ++ [last]) value →
      (next value last).Gives fun more result => later (before ++ ([last] ++ more)) result) :
    (rule >>= fun value => Rule.previous >>= next value).Gives later := by
  intro state ends
  rw [ensures_bind]
  refine (first state ends).mono ?_ fun _ _ fault => fault
  rintro value middle ⟨read, moved, holds⟩
  obtain ⟨before, last, rfl⟩ : ∃ before last, read = before ++ [last] :=
    ⟨_, _, (List.dropLast_concat_getLast (nonempty read value holds)).symm⟩
  have behind : middle.cursor.previous = last := by
    rw [Cursor.previous, moved.before, List.reverse_append]
    rfl
  rw [ensures_bind, ensures_previous, behind]
  refine Yields.ensures (second value before last holds) ends moved ?_
  intro result final more whole _ holds'
  exact ⟨before ++ [last] ++ more, whole, List.append_assoc _ _ _ ▸ holds'⟩

/-! ## Moving -/

/-- Advancing from a token other than the last one reads it. -/
theorem givesFrom_advance (known : token.kind = kind) (inner : kind ≠ .endOfInput) :
    advance.GivesFrom token fun read value => read = [token] ∧ token = value := by
  rintro state ends rfl
  have moved := RuleState.passes_advanced ends (by rw [known]; exact inner)
  exact ⟨_, moved, rfl, rfl⟩

/-- Advancing always succeeds. -/
theorem gives_advance : advance.Gives fun _ _ => True :=
  Yields.mono takes_advance fun _ _ _ _ => trivial

theorem gives_skip {kinds : List TokenKind} (inner : TokenKind.endOfInput ∉ kinds) :
    (skip kinds).Gives fun _ _ => True := by
  intro state ends
  refine ensures_skip inner ends ?_
  intro read final moved _ _
  exact ⟨read, moved, trivial⟩

theorem gives_skipNewlines : skipNewlines.Gives fun _ _ => True :=
  gives_skip (by decide)

theorem gives_expect (inner : kind ≠ .endOfInput) (what : String) :
    (expect kind what).Gives fun read token => read = [token] ∧ token.kind = kind :=
  yields_expect inner fun _ _ => rfl

theorem gives_comma : comma.Gives fun _ _ => True :=
  (gives_expect (by decide) _).bind fun _ _ _ => gives_pure trivial

/-! ## Nesting -/

/-- A level of nesting takes nothing away from what a rule gives. -/
theorem GivesFrom.nested (gives : rule.GivesFrom token good) :
    (Rule.nested rule).GivesFrom token good := by
  intro state ends current
  unfold Ensures Rule.nested
  -- whether the rule succeeds or fails inside, the level that it has entered is left
  cases entered : state.nesting.enter? with
  | none => exact RuleState.faults_refused _ rfl
  | some deeper =>
    have left := Nesting.leave_of_enter? entered
    have body := gives { state with nesting := deeper } ends current
    unfold Ensures at body
    simp only
    cases outcome : rule { state with nesting := deeper } with
    | ok value final =>
      rw [outcome] at body
      obtain ⟨read, moved, holds⟩ := body
      refine ⟨read, ⟨?_, moved.before, moved.rest⟩, holds⟩
      show final.nesting.leave = state.nesting
      rw [moved.nesting]
      exact left
    | error failure final =>
      rw [outcome] at body
      obtain ⟨nesting, fault⟩ := body
      refine ⟨?_, fault⟩
      show final.nesting.leave = state.nesting
      rw [nesting]
      exact left

theorem Gives.nested (gives : rule.Gives good) : (Rule.nested rule).Gives good :=
  gives_of_from fun token => (gives.from token).nested

/-! ## Repetition -/

/-- What a round leaves behind: an invariant if another round follows, in which case it has read a
token, and a result otherwise. -/
def Round.Keeps (invariant : List Token → α → Prop) (good : List Token → β → Prop)
    (before read : List Token) : Round α β → Prop
  | .again next => read ≠ [] ∧ invariant (before ++ read) next
  | .done result => good (before ++ read) result

/-- A round that ends a repetition leaves behind what holds before it. -/
theorem gives_done {invariant : List Token → α → Prop} {result : β} {before : List Token}
    (holds : later before result) :
    (pure (.done result) : Rule (Round α β)).Gives (Round.Keeps invariant later before) := by
  refine gives_pure ?_
  show later (before ++ []) result
  rwa [List.append_nil]

/-- A repetition whose rounds keep an invariant ends with a good result. -/
theorem gives_loop {round : α → Rule (Round α β)} {invariant : List Token → α → Prop}
    (rounds : ∀ value before, invariant before value →
      (round value).Gives (Round.Keeps invariant later before))
    {value : α} {before : List Token} (start : invariant before value) :
    (loop round value).Gives fun read result => later (before ++ read) result := by
  have iterates : ∀ count value before state, invariant before value →
      EndsInput state.cursor.rest → state.cursor.after.length < count →
      (iterate round count value).Ensures state
        (fun result final => ∃ read, state.Passes read final ∧ later (before ++ read) result)
        (state.Faults Cause.Recoverable) := by
    intro count
    -- a round that goes on reads a token, so there are always more rounds than tokens
    induction count with
    | zero => exact fun _ _ _ _ _ enough => absurd enough (Nat.not_lt_zero _)
    | succ count ih =>
      intro value before state start ends enough
      rw [iterate, ensures_bind]
      refine (rounds value before start state ends).mono ?_ fun _ _ fault => fault
      rintro outcome middle ⟨read, moved, kept⟩
      cases outcome with
      | done result => exact ⟨read, moved, kept⟩
      | again next =>
        obtain ⟨nonempty, invariant⟩ := kept
        have length := moved.length_after
        have positive := List.length_pos_iff.mpr nonempty
        refine (ih next _ middle invariant (moved.endsInput ends) (by omega)).mono ?_
          fun _ _ fault => fault.of_passes moved
        rintro result final ⟨more, moved', holds⟩
        rw [List.append_assoc] at holds
        exact ⟨read ++ more, moved.trans moved', holds⟩
  intro state ends
  rw [loop, ensures_bind, ensures_get]
  exact iterates _ value before state start ends (by omega)

/-- A repetition that keeps an invariant and stops in front of a closing token. -/
theorem givesUpTo_loop {round : α → Rule (Round α β)} {invariant : List Token → α → Prop}
    (rounds : ∀ value before, invariant before value →
      (round value).Gives (Round.Keeps invariant later before))
    (stops : ∀ value state, (round value).Ensures state
      (fun outcome final => ∀ result, outcome = .done result →
        final.cursor.current.kind = close) (fun _ _ => True))
    {value : α} (start : invariant [] value) : (loop round value).GivesUpTo close later := by
  intro state ends
  refine ((gives_loop rounds start state ends).and (ensures_loop_done stops value state)).mono ?_
    fun _ _ faults => faults.1
  rintro result final ⟨holds, closing⟩
  exact ⟨closing, holds⟩

/-- A separated list up to a closing token. Each item adds to what holds of the items before it. -/
theorem givesUpTo_delimited {separator : Rule Unit} {item : Rule α}
    {whole : List Token → List α → Prop} (separates : separator.Gives fun _ _ => True)
    (gives : item.Gives good) (consumes : ∀ read value, good read value → read ≠ [])
    (empty : whole [] [])
    (adds : ∀ before items between read value, whole before items → good read value →
      whole (before ++ (between ++ read)) (items ++ [value])) :
    (delimited close separator item).GivesUpTo close whole := by
  have rounds : ∀ items before, whole before items →
      (delimitedRound close separator item items).Gives (Round.Keeps whole whole before) := by
    intro items before holds
    -- an item adds to the items before it, whether a separator was read in between or not
    have appends : ∀ between, (item >>= fun value =>
        pure (Round.again (items ++ [value])) : Rule (Round (List α) (List α))).Gives
          fun read => Round.Keeps whole whole before (between ++ read) := by
      intro between
      refine gives.bind fun value read good => gives_pure ?_
      rw [List.append_nil]
      exact ⟨by simp [consumes read value good], adds _ _ _ _ _ holds good⟩
    refine gives_of_from fun token => givesFrom_isAt (GivesFrom.ite (fun _ => ?_) fun _ => ?_)
    · exact (gives_done holds).from token
    · refine GivesFrom.ite (fun _ => (appends []).from token) fun _ => ?_
      exact (separates.bind fun _ between _ => appends between).from token
  refine givesUpTo_loop rounds (fun items state => ?_) empty
  rw [delimitedRound, ensures_bind, ensures_isAt, ensures_ite]
  split
  · next found => exact fun _ _ => of_decide_eq_true found
  · simp only [ensures_bind, ensures_ite, ensures_pure]
    split <;> simp

/-- One or more items with separators between them. -/
theorem gives_chain {separator : TokenKind} {item : Rule α} {whole : List Token → List α → Prop}
    (gives : item.Gives good) (inner : separator ≠ .endOfInput)
    (single : ∀ read value, good read value → whole read [value])
    (adds : ∀ before items between read value, whole before items → good read value →
      whole (before ++ (between ++ read)) (items ++ [value])) :
    (chain separator item).Gives whole := by
  refine gives.bind fun first before holds => ?_
  refine gives_loop (fun items before holds => ?_) (single before first holds)
  refine gives_of_from fun token => givesFrom_isAt (GivesFrom.ite (fun found => ?_) fun _ => ?_)
  · refine (givesFrom_advance (of_decide_eq_true found) inner).bind ?_
    rintro _ _ ⟨rfl, _⟩
    refine gives.bind fun value read good => gives_pure ?_
    rw [List.append_nil]
    exact ⟨List.cons_ne_nil _ _, adds _ _ _ _ _ holds good⟩
  · exact (gives_done holds).from token

end Rule

end DocGrammar
