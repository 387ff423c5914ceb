import DocGrammar.Proofs.Rules.Yield

/-! # Rules that make progress

A rule of a section takes a number of tokens and fails, if it does, with an error that the section
can be dropped for. Since every round of a repetition takes a token, no such rule runs out of
rounds.

* **`Rule.Takes`** — how many tokens a rule takes at least.
* **`Rule.TakesFrom`** — the same where the current token is known.
* **`Rule.takes_loop`**, **`Rule.takes_delimited`**, **`Rule.takes_chain`** — repetitions. -/

namespace DocGrammar

/-- Whether a section can be dropped for a cause. -/
def Cause.Recoverable (cause : Cause) : Prop := cause.kind.isRecoverable = true

namespace Rule

variable {α β : Type}

/-! ## Taking tokens -/

/-- A rule that succeeds with a value has taken at least `least value` tokens; one that fails can
be recovered from, at the depth that it started at. -/
def Takes (rule : Rule α) (least : α → Nat) : Prop :=
  rule.Yields Cause.Recoverable fun _ read value => least value ≤ read.length

/-- What a rule takes where `token` is the current token. -/
def TakesFrom (token : Token) (rule : Rule α) (least : α → Nat) : Prop :=
  ∀ state, EndsInput state.cursor.rest → state.cursor.current = token →
    rule.Ensures state
      (fun value final => ∃ read, state.Passes read final ∧ least value ≤ read.length)
      (state.Faults Cause.Recoverable)

variable {rule : Rule α} {token : Token} {least less : α → Nat}

theorem Takes.from (takes : rule.Takes least) (token : Token) : rule.TakesFrom token least :=
  fun state ends _ => takes state ends

theorem takes_of_from (takes : ∀ token, rule.TakesFrom token least) : rule.Takes least :=
  fun state ends => takes state.cursor.current state ends rfl

theorem TakesFrom.mono (takes : rule.TakesFrom token least)
    (fewer : ∀ value, less value ≤ least value) : rule.TakesFrom token less := by
  intro state ends current
  refine (takes state ends current).mono ?_ fun _ _ fault => fault
  rintro value final ⟨read, moved, enough⟩
  exact ⟨read, moved, Nat.le_trans (fewer value) enough⟩

theorem Takes.mono (takes : rule.Takes least) (fewer : ∀ value, less value ≤ least value) :
    rule.Takes less :=
  Yields.mono takes fun _ _ value enough => Nat.le_trans (fewer value) enough

/-- A rule with a contract of its own takes no tokens at least. -/
theorem Yields.takes {causes : Cause → Prop} {good : Nat → List Token → α → Prop}
    (yields : rule.Yields causes good) (recoverable : ∀ cause, causes cause → cause.Recoverable)
    (enough : ∀ room read value, good room read value → least value ≤ read.length) :
    rule.Takes least :=
  (yields.mono_causes recoverable).mono enough

/-- A sequence takes what its parts take together. -/
theorem TakesFrom.bind {next : α → Rule β} {count : Nat} {more : β → Nat}
    (first : rule.TakesFrom token fun _ => count) (second : ∀ value, (next value).Takes more) :
    (rule >>= next).TakesFrom token fun result => count + more result := by
  intro state ends current
  rw [ensures_bind]
  refine (first state ends current).mono ?_ fun _ _ fault => fault
  rintro value middle ⟨read, moved, enough⟩
  refine Yields.ensures (second value) ends moved ?_
  intro result final behind whole _ enoughBehind
  refine ⟨read ++ behind, whole, ?_⟩
  rw [List.length_append]
  exact Nat.add_le_add enough enoughBehind

theorem Takes.bind {next : α → Rule β} {count : Nat} {more : β → Nat}
    (first : rule.Takes fun _ => count) (second : ∀ value, (next value).Takes more) :
    (rule >>= next).Takes fun result => count + more result :=
  takes_of_from fun token => (first.from token).bind second

/-- A sequence whose second part takes what is wanted of it. -/
theorem Takes.then {next : α → Rule β} {more : β → Nat} (first : rule.Takes fun _ => 0)
    (second : ∀ value, (next value).Takes more) : (rule >>= next).Takes more :=
  (first.bind second).mono fun _ => Nat.le_of_eq (Nat.zero_add _).symm

/-- A sequence whose first part takes what is wanted of it. -/
theorem Takes.before {next : α → Rule β} {count : Nat} (first : rule.Takes fun _ => count)
    (second : ∀ value, (next value).Takes fun _ => 0) : (rule >>= next).Takes fun _ => count :=
  first.bind second

theorem TakesFrom.before {next : α → Rule β} {count : Nat}
    (first : rule.TakesFrom token fun _ => count)
    (second : ∀ value, (next value).Takes fun _ => 0) :
    (rule >>= next).TakesFrom token fun _ => count :=
  first.bind second

/-- A rule that takes tokens may be used where none need to be taken. -/
theorem Takes.zero {count : Nat} (takes : rule.Takes fun _ => count) : rule.Takes fun _ => 0 :=
  takes.mono fun _ => Nat.zero_le _

/-! ## Single tokens -/

theorem takes_pure {value : α} (none : least value = 0) : (pure value : Rule α).Takes least :=
  fun state _ => ⟨[], .refl state, Nat.le_of_eq none⟩

theorem takes_refuse {cause : Cause} (recoverable : cause.Recoverable) (span : Span) :
    (refuse cause span : Rule α).Takes least :=
  fun _ _ => RuleState.faults_refused _ recoverable

theorem takes_unexpected (token : Token) (wanted : List String) :
    (unexpected token wanted : Rule α).Takes least := by
  have recoverable : (Cause.unexpectedToken token.kind token.value wanted).Recoverable := rfl
  exact takes_refuse recoverable _

/-- Nothing follows a refusal. -/
theorem takes_refuse_bind {cause : Cause} (recoverable : cause.Recoverable) (span : Span)
    (next : β → Rule α) : ((refuse cause span : Rule β) >>= next).Takes least := by
  intro state ends
  rw [ensures_bind, ensures_refuse]
  exact RuleState.faults_refused _ recoverable

theorem takes_unexpected_bind (token : Token) (wanted : List String) (next : β → Rule α) :
    ((unexpected token wanted : Rule β) >>= next).Takes least := by
  have recoverable : (Cause.unexpectedToken token.kind token.value wanted).Recoverable := rfl
  exact takes_refuse_bind recoverable _ next

/-- What follows a look at the current token is judged for that token. -/
theorem takesFrom_current {next : Token → Rule α} (takes : (next token).TakesFrom token least) :
    (current >>= next).TakesFrom token least := by
  intro state ends found
  rw [ensures_bind, ensures_current, found]
  exact takes state ends found

theorem takes_current {next : Token → Rule α}
    (takes : ∀ token, (next token).TakesFrom token least) : (current >>= next).Takes least :=
  takes_of_from fun token => takesFrom_current (takes token)

theorem takesFrom_isAt {next : Bool → Rule α} {kind : TokenKind}
    (takes : (next (token.kind = kind)).TakesFrom token least) :
    (isAt kind >>= next).TakesFrom token least := by
  intro state ends found
  rw [ensures_bind, ensures_isAt, found]
  exact takes state ends found

/-- What follows a look ahead is judged for any token that may stand there. -/
theorem takesFrom_peek {next : Token → Rule α} {distance : Nat}
    (takes : ∀ ahead, (next ahead).TakesFrom token least) :
    (peek distance >>= next).TakesFrom token least := by
  intro state ends found
  rw [ensures_bind, ensures_peek]
  exact takes _ state ends found

theorem TakesFrom.ite {condition : Prop} [Decidable condition] {first second : Rule α}
    (yes : condition → first.TakesFrom token least)
    (no : ¬condition → second.TakesFrom token least) :
    (if condition then first else second : Rule α).TakesFrom token least := by
  split
  · next holds => exact yes holds
  · next fails => exact no fails

/-- Advancing from a token other than the last one takes it. -/
theorem takesFrom_advance {kind : TokenKind} (known : token.kind = kind)
    (inner : kind ≠ .endOfInput) : advance.TakesFrom token fun _ => 1 := by
  intro state ends found
  have moved := RuleState.passes_advanced ends (by rw [found, known]; exact inner)
  exact ⟨[state.cursor.current], moved, Nat.le_refl 1⟩

/-- Advancing takes a token or stays on the last one. -/
theorem takes_advance : advance.Takes fun _ => 0 := by
  intro state ends
  rw [ensures_advance]
  by_cases last : state.cursor.current.kind = .endOfInput
  · have after : state.cursor.after = [] := EndsInput.eq_nil ends last
    have stays : state.advanced = state := by
      unfold RuleState.advanced Cursor.advance
      rw [after]
    rw [stays]
    exact ⟨[], .refl state, Nat.le_refl 0⟩
  · exact ⟨_, RuleState.passes_advanced ends last, Nat.zero_le _⟩

theorem takes_previous : previous.Takes fun _ => 0 :=
  fun state _ => ⟨[], .refl state, Nat.le_refl 0⟩

theorem takesFrom_leaf {node : NodeKind} {kind : TokenKind} (known : token.kind = kind)
    (inner : kind ≠ .endOfInput) : (leaf node).TakesFrom token fun _ => 1 :=
  (takesFrom_advance known inner).before fun _ => takes_pure rfl

theorem takes_leaf (node : NodeKind) : (leaf node).Takes fun _ => 0 :=
  takes_advance.before fun _ => takes_pure rfl

theorem takes_expect {kind : TokenKind} (inner : kind ≠ .endOfInput) (what : String) :
    (expect kind what).Takes fun _ => 1 := by
  refine (yields_expect inner fun found value => rfl).takes (fun _ holds => holds) ?_
  rintro room read value ⟨rfl, _⟩
  exact Nat.le_refl 1

theorem takes_identifier : identifier.Takes fun _ => 1 :=
  (takes_expect (by decide) _).before fun _ => takes_pure rfl

theorem takes_comma : comma.Takes fun _ => 0 :=
  ((takes_expect (by decide) _).before fun _ => takes_pure rfl).zero

theorem takes_skipNewlines : skipNewlines.Takes fun _ => 0 :=
  yields_skipNewlines.takes (fun _ holds => holds) fun _ _ _ _ => Nat.zero_le _

/-! ## Repetitions -/

/-- The number of tokens that a round has to take: one, if others follow it. -/
def Round.taken : Round α β → Nat
  | .again _ => 1
  | .done _ => 0

/-- A round that takes a token may be followed by others. -/
theorem TakesFrom.round {round : Rule (Round α β)} (takes : round.TakesFrom token fun _ => 1) :
    round.TakesFrom token Round.taken := by
  refine takes.mono fun outcome => ?_
  cases outcome with
  | again value => exact Nat.le_refl 1
  | done result => exact Nat.zero_le 1

/-- A repetition whose rounds take a token each comes to an end. -/
theorem takes_loop {round : α → Rule (Round α β)} (takes : ∀ value, (round value).Takes Round.taken)
    (value : α) : (loop round value).Takes fun _ => 0 := by
  refine (Yields.loop takes ?_ value).takes (fun _ holds => holds) fun _ _ _ _ => Nat.zero_le _
  intro value room read next enough
  exact List.length_pos_iff.mp enough

section

variable {close : TokenKind} {separator : Rule Unit} {item : Rule α}

/-- Each item up to a closing token takes a token, whether or not a separator stands before it. -/
theorem takes_delimitedRound (separates : separator.Takes fun _ => 0)
    (takes : item.Takes fun _ => 1) (items : List α) :
    (delimitedRound close separator item items).Takes Round.taken := by
  refine takes_of_from fun token => takesFrom_isAt ?_
  have next : (item >>= fun value =>
      pure (Round.again (items ++ [value])) : Rule (Round (List α) (List α))).Takes fun _ => 1 :=
    takes.before fun _ => takes_pure rfl
  refine TakesFrom.ite (fun _ => (takes_pure rfl).from token) fun _ => ?_
  refine TakesFrom.ite (fun _ => (next.from token).round) fun _ => ?_
  exact ((separates.then fun _ => next).from token).round

theorem takes_delimited (separates : separator.Takes fun _ => 0)
    (takes : item.Takes fun _ => 1) : (delimited close separator item).Takes fun _ => 0 :=
  takes_loop (takes_delimitedRound separates takes) []

/-- Each separator that an item stands behind takes a token. -/
theorem takes_chainRound {separator : TokenKind} (inner : separator ≠ .endOfInput)
    (takes : item.Takes fun _ => 0) (items : List α) :
    (chainRound separator item items).Takes Round.taken := by
  refine takes_of_from fun token => ?_
  refine takesFrom_isAt (TakesFrom.ite (fun found => ?_) fun _ => (takes_pure rfl).from token)
  have kind : token.kind = separator := of_decide_eq_true found
  exact ((takesFrom_advance kind inner).before fun _ =>
    takes.before fun _ => takes_pure rfl).round

theorem takes_chain {separator : TokenKind} (inner : separator ≠ .endOfInput)
    (takes : item.Takes fun _ => 1) : (chain separator item).Takes fun _ => 1 :=
  takes.before fun _ => takes_loop (takes_chainRound inner takes.zero) _

end

end Rule

end DocGrammar
