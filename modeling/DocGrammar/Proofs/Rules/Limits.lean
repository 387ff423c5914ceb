import DocGrammar.Proofs.Rules.Outcome

/-! # Rules under two limits

The limit of nesting only ever refuses. A rule is run twice on the same tokens, under a limit and
under a greater one: unless the first run fails because it is nested too deep, the second one does
the same. The first run is also judged on its own, by what its value is good for and by the token
that its failure names. A rule that is built from others may be given other parts for the second
run, since a greater limit leaves room for deeper ones.

* **`TokenLimits`** — tokens, and two limits under which they are read.
* **`Rule.Tracks`** — a rule and the one that does the same under the greater limit.
* **`Rule.Tracks.bind`**, **`Rule.tracks_nested`**, **`Rule.tracks_loop`** — rules of rules. -/

namespace DocGrammar

/-! ## States under two limits -/

/-- Two limits of nesting. -/
structure Limits where
  /-- The lower limit. -/
  low : Nat
  /-- The greater limit. -/
  high : Nat
  /-- They are in order. -/
  ordered : low ≤ high

/-- Two limits of nesting and the tokens that are read under them. -/
structure TokenLimits extends Limits where
  /-- The tokens. -/
  tokens : List Token

/-- The nesting of the same depth under another limit. -/
def Nesting.under (nesting : Nesting) (limit : Nat) : Nesting := { nesting with limit := limit }

/-- The state with another limit of nesting. -/
def RuleState.under (state : RuleState) (limit : Nat) : RuleState :=
  { state with nesting := state.nesting.under limit }

/-- Whether a state reads the tokens under the lower limit. -/
structure TokenLimits.Admits (limits : TokenLimits) (state : RuleState) : Prop where
  /-- It reads the tokens. -/
  tokens : state.cursor.tokens = limits.tokens
  /-- Its limit is the lower one. -/
  limit : state.nesting.limit = limits.low

namespace TokenLimits.Admits

variable {limits : TokenLimits} {state : RuleState}

/-- A state goes on reading the same tokens wherever its cursor moves in them. -/
theorem move (admits : limits.Admits state) {cursor : Cursor}
    (same : cursor.tokens = state.cursor.tokens) :
    limits.Admits { state with cursor := cursor } :=
  ⟨same.trans admits.tokens, admits.limit⟩

theorem current_mem (admits : limits.Admits state) : state.cursor.current ∈ limits.tokens := by
  rw [← admits.tokens]
  simp [Cursor.tokens]

theorem peek_mem (admits : limits.Admits state) (distance : Nat) :
    state.cursor.peek distance ∈ limits.tokens := by
  rw [← admits.tokens]
  obtain ⟨⟨before, current, after⟩, nesting⟩ := state
  cases distance with
  | zero => simp [Cursor.peek, Cursor.tokens]
  | succ ahead =>
    simp only [Cursor.peek, Cursor.tokens, List.mem_append, List.mem_cons]
    cases found : after[ahead]? with
    | some token => exact .inr (.inr (List.mem_of_getElem? found))
    | none =>
      -- too far ahead, the last token stands in
      cases last : after.getLast? with
      | some token => exact .inr (.inr (List.mem_of_getLast? last))
      | none => exact .inr (.inl rfl)

theorem previous_mem (admits : limits.Admits state) : state.cursor.previous ∈ limits.tokens := by
  rw [← admits.tokens]
  obtain ⟨⟨before, current, after⟩, nesting⟩ := state
  cases before with
  | nil => simp [Cursor.previous, Cursor.tokens]
  | cons token before => simp [Cursor.previous, Cursor.tokens]

end TokenLimits.Admits

/-! ## Failures -/

namespace Failure

/-- Whether a failure is one of too deep nesting. -/
def IsDepth : Failure → Prop
  | refused diagnostic => diagnostic.kind = .depth
  | exhausted => False

/-- Whether a failure, if it refuses the input, does so at one of some tokens. -/
def Blames (tokens : List Token) : Failure → Prop
  | refused diagnostic => ∃ token ∈ tokens, diagnostic.span = token.span
  | exhausted => True

end Failure

/-! ## Two runs -/

namespace Rule

variable {α β : Type} {limits : TokenLimits}

/-- A rule that succeeds with good values only and fails at tokens that it reads. Whatever it does
under the lower limit, unless it is nested too deep, `taller` does under the greater one. -/
def Tracks (limits : TokenLimits) (rule taller : Rule α) (good : α → Prop) : Prop :=
  ∀ state, limits.Admits state → rule.Ensures state
    (fun value final => limits.Admits final ∧ good value ∧
      taller (state.under limits.high) = .ok value (final.under limits.high))
    (fun failure final => limits.Admits final ∧ failure.Blames limits.tokens ∧
      (failure.IsDepth ∨
        taller (state.under limits.high) = .error failure (final.under limits.high)))

/-- A rule that does the same under both limits. -/
abbrev Steady (limits : TokenLimits) (rule : Rule α) (good : α → Prop) : Prop :=
  Tracks limits rule rule good

variable {rule taller : Rule α} {good better : α → Prop} {next tallerNext : α → Rule β}
  {wanted : β → Prop}

theorem Tracks.mono (tracks : Tracks limits rule taller good)
    (weaker : ∀ value, good value → better value) : Tracks limits rule taller better := by
  intro state admits
  refine (tracks state admits).mono ?_ fun _ _ fails => fails
  rintro value final ⟨admitted, holds, same⟩
  exact ⟨admitted, weaker value holds, same⟩

theorem tracks_pure {value : α} (holds : good value) : Steady limits (pure value) good :=
  fun _ admits => ⟨admits, holds, rfl⟩

/-- A sequence tracks another one part by part. -/
theorem Tracks.bind (first : Tracks limits rule taller good)
    (second : ∀ value, good value → Tracks limits (next value) (tallerNext value) wanted) :
    Tracks limits (rule >>= next) (taller >>= tallerNext) wanted := by
  intro state admits
  -- what the sequence does under the higher limit, by what its first part does there
  have onward : ∀ value final, taller (state.under limits.high) = .ok value final →
      (taller >>= tallerNext) (state.under limits.high) = tallerNext value final := by
    intro value final same
    show EStateM.bind taller tallerNext _ = _
    rw [EStateM.bind, same]
  have stops : ∀ failure final, taller (state.under limits.high) = .error failure final →
      (taller >>= tallerNext) (state.under limits.high) = .error failure final := by
    intro failure final same
    show EStateM.bind taller tallerNext _ = _
    rw [EStateM.bind, same]
  rw [ensures_bind]
  refine (first state admits).mono ?_ ?_
  · rintro value middle ⟨admitted, holds, same⟩
    rw [onward _ _ same]
    exact second value holds middle admitted
  · rintro failure final ⟨admitted, blames, depth | same⟩
    · exact ⟨admitted, blames, .inl depth⟩
    · exact ⟨admitted, blames, .inr (stops _ _ same)⟩

theorem Tracks.ite {condition : Prop} [Decidable condition] {other tallerOther : Rule α}
    (yes : condition → Tracks limits rule taller good)
    (no : ¬condition → Tracks limits other tallerOther good) :
    Tracks limits (if condition then rule else other) (if condition then taller else tallerOther)
      good := by
  by_cases holds : condition
  · rw [if_pos holds, if_pos holds]
    exact yes holds
  · rw [if_neg holds, if_neg holds]
    exact no holds

/-! ## Failing -/

theorem tracks_refuse {token : Token} (member : token ∈ limits.tokens) (cause : Cause) :
    Steady limits (refuse cause token.span : Rule α) good :=
  fun _ admits => ⟨admits, ⟨token, member, rfl⟩, .inr rfl⟩

/-- A refusal has no value, so that nothing follows it. -/
theorem tracks_refuse_bind {token : Token} (member : token ∈ limits.tokens) (cause : Cause) :
    Tracks limits (refuse cause token.span >>= next) (refuse cause token.span >>= tallerNext)
      wanted :=
  (tracks_refuse member cause).bind fun _ => False.elim

/-- Nothing is nested deep enough for a rule that is always nested too deep. -/
theorem tracks_tooDeep : Tracks limits tooDeep taller good :=
  fun _ admits => ⟨admits, ⟨_, admits.current_mem, rfl⟩, .inl rfl⟩

/-! ## Looking at the state -/

/-- What follows a look at the state is judged for a state with either limit. -/
theorem tracks_get {next tallerNext : RuleState → Rule β}
    (tracks : ∀ start, limits.Admits start →
      Tracks limits (next start) (tallerNext (start.under limits.high)) wanted) :
    Tracks limits (get >>= next) (get >>= tallerNext) wanted :=
  fun state admits => tracks state admits state admits

/-- A state that was seen before is taken up again. -/
theorem tracks_set {start : RuleState} (admits : limits.Admits start) :
    Tracks limits (set start) (set (start.under limits.high)) fun _ => True :=
  fun _ _ => ⟨admits, trivial, rfl⟩

theorem tracks_current : Steady limits current (· ∈ limits.tokens) :=
  tracks_get fun _ admits => tracks_pure admits.current_mem

theorem tracks_peek (distance : Nat) : Steady limits (peek distance) (· ∈ limits.tokens) :=
  tracks_get fun _ admits => tracks_pure (admits.peek_mem distance)

theorem tracks_previous : Steady limits previous (· ∈ limits.tokens) :=
  tracks_get fun _ admits => tracks_pure admits.previous_mem

theorem tracks_isAt (kind : TokenKind) : Steady limits (isAt kind) fun _ => True :=
  tracks_current.bind fun _ _ => tracks_pure trivial

theorem tracks_isAtAny (kinds : List TokenKind) : Steady limits (isAtAny kinds) fun _ => True :=
  tracks_current.bind fun _ _ => tracks_pure trivial

/-- The greater limit leaves at least as much room as the lower one, which leaves at most itself. -/
theorem tracks_room {next tallerNext : Nat → Rule β}
    (tracks : ∀ few many, few ≤ many → few ≤ limits.low →
      Tracks limits (next few) (tallerNext many) wanted) :
    Tracks limits (room >>= next) (room >>= tallerNext) wanted := by
  intro state admits
  have less : state.nesting.room ≤ limits.low := by
    rw [Nesting.room, admits.limit]
    omega
  have more : state.nesting.room ≤ (state.under limits.high).nesting.room := by
    simp only [Nesting.room, RuleState.under, Nesting.under, admits.limit]
    have ordered := limits.ordered
    omega
  exact tracks _ _ more less state admits

/-! ## Moving -/

/-- The cursor moves to the same place under both limits. -/
theorem tracks_move {move : Cursor → Cursor}
    (keeps : ∀ cursor, (move cursor).tokens = cursor.tokens) :
    Steady limits (modify fun state => { state with cursor := move state.cursor } : Rule PUnit)
      fun _ => True :=
  fun _ admits => ⟨admits.move (keeps _), trivial, rfl⟩

theorem tracks_advance : Steady limits advance (· ∈ limits.tokens) :=
  tracks_current.bind fun _ member =>
    (tracks_move Cursor.tokens_advance).bind fun _ _ => tracks_pure member

theorem tracks_skip (kinds : List TokenKind) : Steady limits (skip kinds) fun _ => True :=
  tracks_move fun cursor => cursor.tokens_skip kinds

theorem tracks_skipNewlines : Steady limits skipNewlines fun _ => True := tracks_skip _

theorem tracks_expect (kind : TokenKind) (what : String) :
    Steady limits (expect kind what) (· ∈ limits.tokens) :=
  tracks_current.bind fun _ member =>
    .ite (fun _ => tracks_advance) fun _ => tracks_refuse member _

theorem tracks_comma : Steady limits comma fun _ => True :=
  (tracks_expect _ _).bind fun _ _ => tracks_pure trivial

/-! ## Nesting -/

/-- Running a rule one level deeper, where that level may be entered. -/
theorem nested_of_lt (rule : Rule α) (cursor : Cursor) {limit depth : Nat}
    (allowed : depth < limit) :
    nested rule ⟨cursor, ⟨limit, depth⟩⟩ =
      match rule ⟨cursor, ⟨limit, depth + 1⟩⟩ with
      | .ok value final => .ok value { final with nesting := final.nesting.leave }
      | .error failure final => .error failure { final with nesting := final.nesting.leave } := by
  have enters : Nesting.enter? ⟨limit, depth⟩ = some ⟨limit, depth + 1⟩ := if_pos allowed
  unfold nested
  split
  · next refused => exact absurd (enters.symm.trans refused) (Option.some_ne_none _)
  · next deeper entered =>
    obtain rfl := Option.some.inj (enters.symm.trans entered)
    rfl

/-- A level that is entered under the lower limit is entered under the greater one. -/
theorem tracks_nested (tracks : Tracks limits rule taller good) :
    Tracks limits (nested rule) (nested taller) good := by
  intro state admits
  obtain ⟨cursor, ⟨limit, depth⟩⟩ := state
  obtain rfl : limit = limits.low := admits.limit
  by_cases allowed : depth < limits.low
  · have allowedHigh : depth < limits.high := Nat.lt_of_lt_of_le allowed limits.ordered
    have ensured := tracks ⟨cursor, ⟨limits.low, depth + 1⟩⟩ ⟨admits.tokens, rfl⟩
    simp only [RuleState.under, Nesting.under] at ensured ⊢
    rw [nested_of_lt taller cursor allowedHigh]
    unfold Ensures at ensured ⊢
    rw [nested_of_lt rule cursor allowed]
    cases outcome : rule ⟨cursor, ⟨limits.low, depth + 1⟩⟩ with
    | ok value final =>
      rw [outcome] at ensured
      obtain ⟨admitted, holds, same⟩ := ensured
      rw [same]
      exact ⟨⟨admitted.tokens, admitted.limit⟩, holds, rfl⟩
    | error failure final =>
      rw [outcome] at ensured
      obtain ⟨admitted, blames, behaves⟩ := ensured
      refine ⟨⟨admitted.tokens, admitted.limit⟩, blames, behaves.imp_right fun same => ?_⟩
      rw [same]
      rfl
  · -- the level is refused for its depth, and the greater limit need not refuse it
    have refuses : Nesting.enter? ⟨limits.low, depth⟩ = none := if_neg allowed
    unfold Ensures nested
    simp only [refuses]
    exact ⟨admits, ⟨cursor.current, admits.current_mem, rfl⟩, .inl rfl⟩

/-! ## Repetition -/

/-- What a round of a repetition hands on. -/
def Round.Meets (going : α → Prop) (done : β → Prop) : Round α β → Prop
  | .again value => going value
  | .done value => done value

/-- Rounds that keep an invariant and track others do so as often as they are repeated. -/
theorem tracks_iterate {round tallerRound : α → Rule (Round α β)} {going : α → Prop}
    (rounds : ∀ value, going value →
      Tracks limits (round value) (tallerRound value) (Round.Meets going wanted))
    (count : Nat) {value : α} (start : going value) :
    Tracks limits (iterate round count value) (iterate tallerRound count value) wanted := by
  induction count generalizing value with
  | zero => exact fun state admits => ⟨admits, trivial, .inr rfl⟩
  | succ count ih =>
    refine (rounds value start).bind fun outcome meets => ?_
    cases outcome with
    | again next => exact ih meets
    | done result => exact tracks_pure meets

/-- Both repetitions have as many rounds as there are tokens ahead. -/
theorem tracks_loop {round tallerRound : α → Rule (Round α β)} {going : α → Prop}
    (rounds : ∀ value, going value →
      Tracks limits (round value) (tallerRound value) (Round.Meets going wanted))
    {value : α} (start : going value) :
    Tracks limits (loop round value) (loop tallerRound value) wanted :=
  tracks_get fun _ _ => tracks_iterate rounds _ start

/-- Whether all of some items are good. -/
def All (good : α → Prop) (items : List α) : Prop := ∀ item ∈ items, good item

theorem All.nil : All good [] := List.forall_mem_nil _

theorem All.concat {items : List α} (others : All good items) {item : α} (last : good item) :
    All good (items ++ [item]) :=
  List.forall_mem_append.mpr ⟨others, List.forall_mem_singleton.mpr last⟩

theorem tracks_delimited {close : TokenKind} {separator : Rule Unit}
    (separates : Steady limits separator fun _ => True) (each : Tracks limits rule taller good) :
    Tracks limits (delimited close separator rule) (delimited close separator taller)
      (All good) := by
  have rounds : ∀ items, All good items →
      Tracks limits (delimitedRound close separator rule items)
        (delimitedRound close separator taller items) (Round.Meets (All good) (All good)) := by
    intro items others
    have more : Tracks limits (do return Round.again (items ++ [← rule]))
        (do return Round.again (items ++ [← taller])) (Round.Meets (All good) (All good)) :=
      each.bind fun item holds => tracks_pure (others.concat holds)
    refine (tracks_isAt close).bind fun closes _ => .ite (fun _ => tracks_pure others) fun _ => ?_
    exact .ite (fun _ => more) fun _ => separates.bind fun _ _ => more
  exact tracks_loop rounds All.nil

theorem tracks_chain {separator : TokenKind} (each : Tracks limits rule taller good) :
    Tracks limits (chain separator rule) (chain separator taller) (All good) := by
  have rounds : ∀ items, All good items →
      Tracks limits (chainRound separator rule items) (chainRound separator taller items)
        (Round.Meets (All good) (All good)) := by
    intro items others
    refine (tracks_isAt separator).bind fun separates _ => .ite (fun _ => ?_) fun _ =>
      tracks_pure others
    exact tracks_advance.bind fun _ _ => each.bind fun item holds =>
      tracks_pure (others.concat holds)
  exact each.bind fun first holds =>
    tracks_loop rounds (List.forall_mem_singleton.mpr holds)

end Rule

end DocGrammar
