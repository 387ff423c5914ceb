import DocGrammar.Proofs.Rules.Yield
import DocGrammar.Proofs.Rules.Reading
import Mathlib.Data.List.TakeWhile

/-! # What rules leave

A rule seen from the tokens that it starts at to those that it leaves, so that what it does can be
compared with derivations that lead from the former to the latter.

* **`Rule.Leaves`** — what holds of the value of a rule that succeeds and the tokens it leaves.
* **`Rule.leaves_loop`**, **`Rule.leaves_delimited`** — repetitions, from what each round adds.
* **`Rule.Runs`**, **`Rule.Goes`** — with enough room a rule, or a repetition in some round,
  succeeds with a value and leaves some tokens. -/

namespace DocGrammar

/-- The tokens behind the line ends that some tokens start with. -/
def behindFeeds (tokens : List Token) : List Token :=
  tokens.dropWhile fun token => token.kind = .newline

/-- Behind line ends there are some of the tokens. -/
theorem behindFeeds_suffix (tokens : List Token) : behindFeeds tokens <:+ tokens :=
  List.dropWhile_suffix _

/-- Line ends that others may stand behind are left out. -/
theorem behindFeeds_append {feeds rest : List Token}
    (newlines : ∀ token ∈ feeds, token.kind = .newline)
    (other : ∀ token ∈ rest.head?, token.kind ≠ .newline) : behindFeeds (feeds ++ rest) = rest := by
  unfold behindFeeds
  rw [List.dropWhile_append_of_pos fun token member => decide_eq_true (newlines token member)]
  cases rest with
  | nil => rfl
  | cons next others =>
    have plain := other next rfl
    rw [List.dropWhile_cons_of_neg (by simpa using plain)]

namespace Rule

variable {α β : Type}

/-! ## What a success says -/

/-- If a rule succeeds, it has read some tokens, and its value and the tokens it leaves are good. -/
def Leaves (rule : Rule α) (state : RuleState) (good : α → List Token → Prop) : Prop :=
  rule.Ensures state
    (fun value final => ∃ read, state.Passes read final ∧ good value final.cursor.rest)
    (fun _ _ => True)

variable {rule : Rule α} {state : RuleState} {good weak : α → List Token → Prop}
  {later : β → List Token → Prop}

theorem Leaves.mono (leaves : rule.Leaves state good)
    (weaker : ∀ value rest, good value rest → weak value rest) : rule.Leaves state weak := by
  refine Ensures.mono leaves ?_ fun _ _ _ => trivial
  rintro value final ⟨read, moved, holds⟩
  exact ⟨read, moved, weaker value _ holds⟩

theorem leaves_pure {value : α} (holds : good value state.cursor.rest) :
    (pure value : Rule α).Leaves state good :=
  ⟨[], .refl state, holds⟩

/-- What follows a rule is judged where the rule has left off. -/
theorem Leaves.bind {next : α → Rule β} (leaves : rule.Leaves state good)
    (ends : EndsInput state.cursor.rest)
    (second : ∀ value middle, EndsInput middle.cursor.rest → good value middle.cursor.rest →
      (next value).Leaves middle later) : (rule >>= next).Leaves state later := by
  unfold Leaves
  rw [ensures_bind]
  refine Ensures.mono leaves ?_ fun _ _ _ => trivial
  rintro value middle ⟨read, moved, holds⟩
  refine Ensures.mono (second value middle (moved.endsInput ends) holds) ?_ fun _ _ _ => trivial
  rintro result final ⟨more, moved', holds'⟩
  exact ⟨read ++ more, moved.trans moved', holds'⟩

/-- A rule that is refused leaves nothing. -/
theorem leaves_unexpected (token : Token) (wanted : List String) :
    (unexpected token wanted : Rule α).Leaves state good := trivial

theorem leaves_tooDeep : (tooDeep : Rule α).Leaves state good := trivial

theorem leaves_current {next : Token → Rule α}
    (leaves : (next state.cursor.current).Leaves state good) :
    (current >>= next).Leaves state good := leaves

theorem leaves_isAt {kind : TokenKind} {next : Bool → Rule α}
    (leaves : (next (state.cursor.current.kind = kind)).Leaves state good) :
    (isAt kind >>= next).Leaves state good := leaves

theorem Leaves.ite {condition : Prop} [Decidable condition] {first second : Rule α}
    (yes : condition → first.Leaves state good) (no : ¬condition → second.Leaves state good) :
    (if condition then first else second : Rule α).Leaves state good := by
  split
  · next holds => exact yes holds
  · next fails => exact no fails

/-- Advancing from a token other than the last one leaves the tokens behind it. -/
theorem leaves_advance (ends : EndsInput state.cursor.rest)
    (inner : state.cursor.current.kind ≠ .endOfInput) :
    advance.Leaves state fun token rest =>
      token = state.cursor.current ∧ state.cursor.rest = token :: rest := by
  have moved := RuleState.passes_advanced ends inner
  exact ⟨_, moved, rfl, moved.rest⟩

theorem leaves_expect (ends : EndsInput state.cursor.rest) {kind : TokenKind}
    (inner : kind ≠ .endOfInput) (what : String) :
    (expect kind what).Leaves state fun token rest =>
      token.kind = kind ∧ state.cursor.rest = token :: rest := by
  unfold Leaves
  rw [ensures_expect]
  split
  · next found =>
    have moved := RuleState.passes_advanced ends (by rw [found]; exact inner)
    exact ⟨_, moved, found, moved.rest⟩
  · trivial

theorem leaves_comma (ends : EndsInput state.cursor.rest) :
    comma.Leaves state fun _ rest =>
      ∃ mark, mark.kind = .comma ∧ state.cursor.rest = mark :: rest :=
  (leaves_expect ends (by decide) _).bind ends fun mark _ _ found => leaves_pure ⟨mark, found⟩

theorem leaves_leaf (kind : NodeKind) (ends : EndsInput state.cursor.rest)
    (inner : state.cursor.current.kind ≠ .endOfInput) :
    (leaf kind).Leaves state fun node rest =>
      node = .leaf kind state.cursor.current ∧
        state.cursor.rest = state.cursor.current :: rest := by
  refine (leaves_advance ends inner).bind ends fun token middle _ advanced => leaves_pure ?_
  obtain ⟨rfl, rest⟩ := advanced
  exact ⟨rfl, rest⟩

/-- The token before the current one is the one that was advanced from. -/
theorem leaves_advance_previous {next : Token → Rule α} (ends : EndsInput state.cursor.rest)
    (inner : state.cursor.current.kind ≠ .endOfInput)
    (second : ∀ middle, EndsInput middle.cursor.rest →
      state.cursor.rest = state.cursor.current :: middle.cursor.rest →
      (next state.cursor.current).Leaves middle good) :
    (advance >>= fun _ => previous >>= next).Leaves state good := by
  have moved := RuleState.passes_advanced ends inner
  have leaves := second state.advanced (moved.endsInput ends) moved.rest
  have last : state.advanced.cursor.previous = state.cursor.current := by
    unfold Cursor.previous
    rw [moved.before]
    rfl
  unfold Leaves at leaves ⊢
  rw [ensures_bind, ensures_advance]
  show (next state.advanced.cursor.previous).Ensures state.advanced _ _
  rw [last]
  refine Ensures.mono leaves ?_ fun _ _ _ => trivial
  rintro value final ⟨read, passed, holds⟩
  exact ⟨_, moved.trans passed, holds⟩

theorem leaves_skipNewlines (ends : EndsInput state.cursor.rest) :
    skipNewlines.Leaves state fun _ rest => rest = behindFeeds state.cursor.rest := by
  refine ensures_skip (by decide) ends ?_
  intro read final moved newlines stop
  refine ⟨read, moved, ?_⟩
  rw [moved.rest, behindFeeds_append]
  · exact fun token member => by simpa using newlines token member
  · rintro token ⟨⟩
    simpa using stop

/-- A level of nesting changes nothing in what a rule leaves. -/
theorem Leaves.nested (leaves : ∀ nesting, rule.Leaves { state with nesting := nesting } good) :
    (Rule.nested rule).Leaves state good := by
  unfold Leaves Ensures Rule.nested
  cases entered : state.nesting.enter? with
  | none => trivial
  | some deeper =>
    have body := leaves deeper
    have left := Nesting.leave_of_enter? entered
    unfold Leaves Ensures at body
    simp only
    cases outcome : rule { state with nesting := deeper } with
    | error failure final => trivial
    | ok value final =>
      rw [outcome] at body
      obtain ⟨read, moved, holds⟩ := body
      refine ⟨read, ⟨?_, moved.before, moved.rest⟩, holds⟩
      show final.nesting.leave = state.nesting
      rw [moved.nesting]
      exact left

/-! ## Repetitions -/

/-- What a round says about the whole repetition, given what `whole` says from the next one on. -/
def Round.Extends (whole : α → List Token → β → List Token → Prop) (value : α)
    (tokens : List Token) (rest : List Token) : Round α β → Prop
  | .again next => ∀ result last, whole next rest result last → whole value tokens result last
  | .done result => whole value tokens result rest

/-- A repetition leaves what its rounds add up to. -/
theorem leaves_loop {round : α → Rule (Round α β)}
    {whole : α → List Token → β → List Token → Prop}
    (rounds : ∀ value state, EndsInput state.cursor.rest → (round value).Leaves state
      fun outcome rest => outcome.Extends whole value state.cursor.rest rest)
    (value : α) (ends : EndsInput state.cursor.rest) :
    (loop round value).Leaves state fun result rest =>
      whole value state.cursor.rest result rest := by
  have iterates : ∀ count value state, EndsInput state.cursor.rest →
      (iterate round count value).Leaves state fun result rest =>
        whole value state.cursor.rest result rest := by
    intro count
    induction count with
    | zero => exact fun _ _ _ => trivial
    | succ count ih =>
      intro value state ends
      refine (rounds value state ends).bind ends fun outcome middle inner adds => ?_
      cases outcome with
      | done result => exact leaves_pure adds
      | again next => exact (ih next middle inner).mono adds
  exact iterates _ value state ends

section

variable {close : TokenKind} {separator : Rule Unit} {item : Rule α}
  {first more : List Token → List α → List Token → Prop}

/-- What stands behind some items adds others to them. Here `first` says what all of the items are,
and `more` what those behind one are. -/
def Adds (first more : List Token → List α → List Token → Prop) (items : List α)
    (tokens : List Token) (result : List α) (rest : List Token) : Prop :=
  ∃ values, result = items ++ values ∧ (if items.isEmpty then first else more) tokens values rest

theorem adds_concat_iff {items result : List α} {value : α} {tokens rest : List Token} :
    Adds first more (items ++ [value]) tokens result rest ↔
      ∃ values, result = items ++ value :: values ∧ more tokens values rest := by
  simp [Adds]

variable
  (none : ∀ next others, next.kind = close →
    first (next :: others) [] (next :: others) ∧ more (next :: others) [] (next :: others))
  (opens : ∀ state : RuleState, EndsInput state.cursor.rest → state.cursor.current.kind ≠ close →
    item.Leaves state fun value rest => ∀ values last, more rest values last →
      first state.cursor.rest (value :: values) last)
  (goes : ∀ state : RuleState, EndsInput state.cursor.rest → state.cursor.current.kind ≠ close →
    (separator >>= fun _ => item).Leaves state fun value rest => ∀ values last,
      more rest values last → more state.cursor.rest (value :: values) last)

include none opens goes

/-- A round adds an item, or there is none left. -/
theorem leaves_delimitedRound (items : List α) (state : RuleState)
    (ends : EndsInput state.cursor.rest) :
    (delimitedRound close separator item items).Leaves state fun outcome rest =>
      outcome.Extends (Adds first more) items state.cursor.rest rest := by
  refine leaves_isAt (.ite (fun closes => ?_) fun opened => ?_)
  · obtain ⟨all, others⟩ := none _ state.cursor.after (of_decide_eq_true closes)
    refine leaves_pure ⟨[], (List.append_nil items).symm, ?_⟩
    split
    · exact all
    · exact others
  have inside : state.cursor.current.kind ≠ close := fun same => opened (decide_eq_true same)
  cases items with
  | nil =>
    refine (opens state ends inside).bind ends fun value middle _ holds => leaves_pure ?_
    intro result last further
    obtain ⟨values, rfl, others⟩ := adds_concat_iff.mp further
    exact ⟨value :: values, rfl, holds values last others⟩
  | cons head items =>
    -- behind an item a separator comes first; the sequence is put in brackets for that
    have step : ((separator >>= fun _ => item) >>= fun value =>
        pure (Round.again (head :: items ++ [value])) : Rule (Round (List α) (List α))).Leaves
          state fun outcome rest =>
            outcome.Extends (Adds first more) (head :: items) state.cursor.rest rest := by
      refine (goes state ends inside).bind ends fun value middle _ holds => leaves_pure ?_
      intro result last further
      obtain ⟨values, rfl, others⟩ := adds_concat_iff.mp further
      exact ⟨value :: values, rfl, holds values last others⟩
    rw [bind_assoc] at step
    exact step

/-- Items up to a closing token leave what each of them adds. -/
theorem leaves_delimited (ends : EndsInput state.cursor.rest) :
    (delimited close separator item).Leaves state fun values rest =>
      first state.cursor.rest values rest := by
  refine (leaves_loop (leaves_delimitedRound none opens goes) [] ends).mono ?_
  rintro result rest ⟨values, rfl, holds⟩
  exact holds

end

/-! ## Runs that succeed -/

/-- With at least `room` levels left, a rule that faces some tokens succeeds with a value and leaves
the last of the tokens. -/
def Runs (rule : Rule α) (room : Nat) (tokens : List Token) (value : α) (rest : List Token) :
    Prop :=
  ∃ read, tokens = read ++ rest ∧ rule.Reads room read rest (· = value)

variable {room : Nat} {tokens between rest others : List Token} {token : Token} {value : α}
  {result : β}

theorem runs_pure (value : α) (tokens : List Token) :
    (pure value : Rule α).Runs room tokens value tokens :=
  ⟨[], rfl, fun _ _ _ _ => ⟨rfl, rfl⟩⟩

/-- A sequence goes on where its first part has left off. -/
theorem Runs.bind {next : α → Rule β} (first : rule.Runs room tokens value between)
    (second : (next value).Runs room between result rest) :
    (rule >>= next).Runs room tokens result rest := by
  obtain ⟨read, rfl, reads⟩ := first
  obtain ⟨more, rfl, reads'⟩ := second
  refine ⟨read ++ more, (List.append_assoc _ _ _).symm, reads.bind ?_⟩
  rintro _ rfl
  exact reads'

/-- A value may be converted behind a rule. -/
theorem Runs.map (runs : rule.Runs room tokens value rest) (convert : α → β) :
    (do return convert (← rule) : Rule β).Runs room tokens (convert value) rest :=
  runs.bind (runs_pure _ _)

theorem Runs.nested (runs : rule.Runs room tokens value rest) :
    (Rule.nested rule).Runs (room + 1) tokens value rest := by
  obtain ⟨read, split, reads⟩ := runs
  exact ⟨read, split, reads.nested⟩

theorem runs_current {next : Token → Rule α}
    (runs : (next token).Runs room (token :: others) value rest) :
    (current >>= next).Runs room (token :: others) value rest := by
  obtain ⟨read, split, reads⟩ := runs
  refine ⟨read, split, fun nonempty before nesting enough => ?_⟩
  have reading := reads nonempty before nesting enough
  rw [← split] at reading ⊢
  exact reading

theorem runs_isAt {kind : TokenKind} {next : Bool → Rule α}
    (runs : (next (token.kind = kind)).Runs room (token :: others) value rest) :
    (isAt kind >>= next).Runs room (token :: others) value rest := by
  obtain ⟨read, split, reads⟩ := runs
  refine ⟨read, split, fun nonempty before nesting enough => ?_⟩
  have reading := reads nonempty before nesting enough
  rw [← split] at reading ⊢
  exact reading

theorem runs_advance (token : Token) (rest : List Token) :
    advance.Runs room (token :: rest) token rest := by
  refine ⟨[token], rfl, fun nonempty before nesting _ => ?_⟩
  show (advance).Ensures (.facing before (token :: rest) nesting) _ _
  rw [ensures_advance, RuleState.advanced_facing nonempty]
  exact ⟨rfl, rfl⟩

theorem runs_expect {kind : TokenKind} (known : token.kind = kind) (what : String)
    (rest : List Token) : (expect kind what).Runs room (token :: rest) token rest := by
  refine runs_current ?_
  rw [if_pos known]
  exact runs_advance token rest

theorem runs_comma (known : token.kind = .comma) (rest : List Token) :
    comma.Runs room (token :: rest) () rest :=
  (runs_expect known _ rest).bind (runs_pure _ _)

theorem runs_leaf (kind : NodeKind) (token : Token) (rest : List Token) :
    (leaf kind).Runs room (token :: rest) (.leaf kind token) rest :=
  (runs_advance token rest).map (Node.leaf kind)

theorem runs_advance_previous {next : Token → Rule α}
    (runs : (next token).Runs room others value rest) :
    (advance >>= fun _ => previous >>= next).Runs room (token :: others) value rest := by
  obtain ⟨read, rfl, reads⟩ := runs
  refine ⟨token :: read, rfl, fun nonempty before nesting enough => ?_⟩
  have faced : read ++ rest ≠ [] := by simp [nonempty]
  rw [ensures_bind, ensures_advance, List.cons_append, RuleState.advanced_facing faced,
    List.reverse_cons, List.append_assoc]
  show (next (RuleState.facing (token :: before) (read ++ rest) nesting).cursor.previous).Ensures
    _ _ _
  rw [RuleState.previous_facing]
  exact reads nonempty (token :: before) nesting enough

theorem runs_skipNewlines (tokens : List Token) :
    skipNewlines.Runs room tokens () (behindFeeds tokens) := by
  refine ⟨tokens.takeWhile fun token => token.kind = .newline,
    List.takeWhile_append_dropWhile.symm, ?_⟩
  refine (reads_skip (fun token member => ?_) fun token member => ?_).mono le_rfl fun _ _ => rfl
  · simpa using List.mem_takeWhile_imp member
  · have stop := List.head?_dropWhile_not (fun token : Token => token.kind = .newline) tokens
    unfold behindFeeds at member
    rw [Option.mem_def.mp member] at stop
    simpa using stop

/-- A rule with enough room moves behind the tokens that it reads. -/
theorem Runs.exists_ok (runs : rule.Runs room state.cursor.rest value rest) (nonempty : rest ≠ [])
    (enough : room ≤ state.nesting.room) : ∃ read final, rule state = .ok value final ∧
      state.Passes read final ∧ final.cursor.rest = rest := by
  obtain ⟨read, split, reads⟩ := runs
  obtain ⟨_, rfl, outcome⟩ := reads.exists_ok nonempty state.cursor.before state.nesting enough
  rw [← split] at outcome
  refine ⟨read, _, outcome, ⟨RuleState.nesting_facing, RuleState.before_facing, ?_⟩,
    RuleState.rest_facing nonempty⟩
  rw [RuleState.rest_facing nonempty]
  exact split

/-- On the same tokens a rule succeeds in one way only. -/
theorem Runs.unique {room' : Nat} {other : α} {rest' : List Token}
    (first : rule.Runs room tokens value rest) (second : rule.Runs room' tokens other rest')
    (nonempty : rest ≠ []) (nonempty' : rest' ≠ []) : value = other ∧ rest = rest' := by
  have some : tokens ≠ [] := by
    obtain ⟨read, rfl, _⟩ := first
    simp [nonempty]
  let state : RuleState := .facing [] tokens ⟨room + room', 0⟩
  have faced : state.cursor.rest = tokens := RuleState.rest_facing some
  have enough : state.nesting.room = room + room' := by
    rw [RuleState.nesting_facing]
    exact Nat.sub_zero _
  rw [← faced] at first second
  obtain ⟨_, final, outcome, _, left⟩ := first.exists_ok nonempty (by omega)
  obtain ⟨_, final', outcome', _, left'⟩ := second.exists_ok nonempty' (by omega)
  rw [outcome] at outcome'
  cases outcome'
  exact ⟨rfl, left.symm.trans left'⟩

/-! ## Repetitions that succeed -/

/-- With at least `room` levels left, the rounds of a repetition from some value on succeed with a
result and leave the last of the tokens that they face. -/
def Goes (round : α → Rule (Round α β)) (room : Nat) (value : α) (tokens : List Token) (result : β)
    (rest : List Token) : Prop :=
  ∃ read, tokens = read ++ rest ∧ LoopReads round value room read rest (· = result)

variable {round : α → Rule (Round α β)} {next : α}

/-- The last round reads nothing. -/
theorem goes_done (runs : (round value).Runs room tokens (.done result) tokens) :
    Goes round room value tokens result tokens := by
  obtain ⟨read, split, reads⟩ := runs
  obtain rfl : read = [] := by simpa using split.symm
  refine ⟨[], rfl, .done (reads.mono le_rfl ?_)⟩
  rintro _ rfl
  exact rfl

/-- A round that others follow reads a token. -/
theorem Goes.again (goes : Goes round room next between result rest)
    (runs : (round value).Runs room tokens (.again next) between)
    (shorter : between.length < tokens.length) : Goes round room value tokens result rest := by
  obtain ⟨read, rfl, reads⟩ := runs
  obtain ⟨more, rfl, others⟩ := goes
  have consumes : read ≠ [] := by
    rintro rfl
    exact absurd shorter (Nat.lt_irrefl _)
  have again : (round value).Reads room read (more ++ rest) (Round.IsAgain (· = next)) := by
    refine reads.mono le_rfl ?_
    rintro _ rfl
    exact rfl
  refine ⟨read ++ more, (List.append_assoc _ _ _).symm, .again read again consumes ?_⟩
  rintro _ rfl
  exact others

theorem Goes.runs (goes : Goes round room value tokens result rest) :
    (loop round value).Runs room tokens result rest := by
  obtain ⟨read, split, reads⟩ := goes
  exact ⟨read, split, reads.loop⟩

section

variable {close : TokenKind} {separator : Rule Unit} {item : Rule α} {items : List α}

theorem goes_delimited_done (closes : token.kind = close) :
    Goes (delimitedRound close separator item) room items (token :: others) items
      (token :: others) := by
  refine goes_done (runs_isAt ?_)
  rw [if_pos (decide_eq_true closes)]
  exact runs_pure _ _

/-- The first item stands before no separator. -/
theorem runs_delimitedRound_first (opens : token.kind ≠ close)
    (runs : item.Runs room (token :: others) value rest) :
    (delimitedRound close separator item []).Runs room (token :: others) (.again [value]) rest := by
  refine runs_isAt ?_
  rw [if_neg (by simpa using opens)]
  exact runs.map fun value => Round.again [value]

/-- The other items stand behind a separator. -/
theorem runs_delimitedRound_more (nonempty : items ≠ []) (opens : token.kind ≠ close)
    (runs : (separator >>= fun _ => item).Runs room (token :: others) value rest) :
    (delimitedRound close separator item items).Runs room (token :: others)
      (.again (items ++ [value])) rest := by
  refine runs_isAt ?_
  rw [if_neg (by simpa using opens)]
  have whole := runs.map fun value => (Round.again (items ++ [value]) : Round (List α) (List α))
  rw [bind_assoc] at whole
  obtain ⟨head, items, rfl⟩ := List.exists_cons_of_ne_nil nonempty
  exact whole

end

end Rule

end DocGrammar
