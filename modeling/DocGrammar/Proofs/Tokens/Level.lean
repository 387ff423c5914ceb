import DocGrammar.Proofs.Tokens.Phrase

/-! # Rows of several lines

Where no bracket is open, line ends separate. A row of symbols that closes its brackets may then
hold line ends as well.

* **`IsLevel`** — rows that can be read where no bracket is open and leave none open.
* **`EndsLine`** — those behind which the line may end. -/

namespace DocGrammar

variable {keywords : KeywordTable}

/-- Whether some symbols can be read where no bracket is open, and leave none open. -/
structure IsLevel (symbols : List (Symbol keywords)) : Prop where
  /-- They can be read. -/
  fits : ∀ state : CodeState, state.openBrackets = 0 → state.Fits symbols
  /-- They leave no bracket open. -/
  level : ∀ state : CodeState, state.openBrackets = 0 → (state.pastAll symbols).openBrackets = 0

/-- Whether some symbols form such a row and the line may end behind it. -/
structure EndsLine (symbols : List (Symbol keywords)) : Prop extends IsLevel symbols where
  /-- The line may end. -/
  ends : ∀ state : CodeState, state.openBrackets = 0 → (state.pastAll symbols).endsLine = true

variable {symbols others : List (Symbol keywords)} {symbol : Symbol keywords}

theorem isLevel_nil : IsLevel ([] : List (Symbol keywords)) :=
  ⟨fun _ _ => trivial, fun _ closed => closed⟩

theorem IsPhrase.isLevel (phrase : IsPhrase symbols) : IsLevel symbols :=
  ⟨fun state _ => phrase.fits state, fun state closed => (phrase.balanced state).trans closed⟩

theorem IsLevel.append (first : IsLevel symbols) (second : IsLevel others) :
    IsLevel (symbols ++ others) := by
  refine ⟨fun state closed => ?_, fun state closed => ?_⟩
  · exact (CodeState.fits_append _ _ _).mpr
      ⟨first.fits state closed, second.fits _ (first.level state closed)⟩
  · rw [CodeState.pastAll_append]
    exact second.level _ (first.level state closed)

theorem IsLevel.append_endsLine (first : IsLevel symbols) (second : EndsLine others) :
    EndsLine (symbols ++ others) := by
  refine ⟨first.append second.toIsLevel, fun state closed => ?_⟩
  rw [CodeState.pastAll_append]
  exact second.ends _ (first.level state closed)

/-- What changes neither the open brackets nor is a slash or a pattern is level. -/
theorem isLevel_singleton
    (fits : symbol.kind ≠ .slash ∧ symbol.kind ≠ .patternLit)
    (brackets : ∀ state : CodeState, state.bracketsBehind symbol.kind = state.openBrackets) :
    IsLevel [symbol] := by
  refine ⟨fun state _ => ⟨⟨fun slash => absurd slash fits.1, fun pattern => absurd pattern fits.2⟩,
    trivial⟩, fun state closed => ?_⟩
  show (state.past symbol).openBrackets = 0
  unfold CodeState.past
  split
  · exact (brackets state).trans closed
  · exact closed

/-- Behind a value the line may end. -/
theorem IsValue.endsLine (value : IsValue symbols) : EndsLine symbols := by
  refine ⟨value.toIsPhrase.isLevel, fun state closed => ?_⟩
  have behind := value.isBehindValue state
  have level := (value.balanced state).trans closed
  unfold CodeState.isBehindValue at behind
  unfold CodeState.endsLine
  rw [level]
  cases previous : (state.pastAll symbols).previous with
  | none =>
    rw [previous] at behind
    exact Bool.noConfusion behind
  | some kind =>
    rw [previous] at behind
    have ends : kind.endsValue = true := behind
    cases kind <;> first
      | exact Bool.noConfusion ends
      | rfl

/-- Behind a symbol that neither goes on nor is a line end the line may end. -/
theorem endsLine_singleton (level : IsLevel [symbol]) (noFeed : symbol.isFeed = false)
    (visible : symbol.kind ≠ .comment ∧ symbol.kind ≠ .newline)
    (stops : symbol.kind.continuesLine = false) : EndsLine [symbol] := by
  refine ⟨level, fun state closed => ?_⟩
  have open' := level.level state closed
  show (state.past symbol).endsLine = true
  rw [show state.pastAll [symbol] = state.past symbol from rfl,
    CodeState.past_of_noFeed state noFeed] at open'
  rw [CodeState.past_of_noFeed state noFeed]
  have previous : (state.behind symbol.kind symbol.chars).previous = some symbol.kind :=
    if_neg visible.1
  unfold CodeState.endsLine
  rw [open', previous]
  simp [stops, visible.2]

/-- What becomes a token is among the symbols. -/
theorem CodeState.mem_of_mem_emitted {state : CodeState} (member : symbol ∈ state.emitted symbols) :
    symbol ∈ symbols := by
  induction symbols generalizing state with
  | nil => exact member
  | cons first others ih =>
    unfold CodeState.emitted at member
    split at member
    · rcases List.mem_cons.mp member with rfl | further
      · exact List.mem_cons_self
      · exact List.mem_cons_of_mem _ (ih further)
    · exact List.mem_cons_of_mem _ (ih member)

/-- Where the line may end, the next symbol becomes a token. -/
theorem CodeState.emitted_of_endsLine {state : CodeState} (ends : state.endsLine = true) :
    state.emitted (symbol :: others) = symbol :: (state.past symbol).emitted others := by
  have kept : state.keeps symbol = true := by rw [CodeState.keeps, ends, Bool.or_true]
  rw [CodeState.emitted, if_pos kept]

end DocGrammar
