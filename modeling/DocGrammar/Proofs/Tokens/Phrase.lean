import DocGrammar.Proofs.Tokens.Layout

/-! # Phrases

A phrase is a row of symbols on one line that closes the brackets it opens, assigns nothing and can
be read wherever it stands. All of its symbols become tokens. A phrase that ends with a value may be
divided by what follows, and the line may end behind it.

* **`IsPhrase`**, **`IsValue`** — phrases, and those that end with a value.
* **`IsPhrase.append`**, **`IsPhrase.enclosed`** — phrases are made of phrases. -/

namespace DocGrammar

variable {keywords : KeywordTable}

/-! ## Phrases -/

/-- Whether some symbols form a phrase. -/
structure IsPhrase (symbols : List (Symbol keywords)) : Prop where
  /-- They stand on one line. -/
  noFeed : ∀ symbol ∈ symbols, symbol.isFeed = false
  /-- They assign nothing. -/
  noAssign : ∀ symbol ∈ symbols, symbol.kind ≠ .assign
  /-- They can be read wherever they stand. -/
  fits : ∀ state : CodeState, state.Fits symbols
  /-- They close the brackets that they open. -/
  balanced : ∀ state : CodeState, (state.pastAll symbols).openBrackets = state.openBrackets

/-- Whether some symbols form a phrase that ends with a value. -/
structure IsValue (symbols : List (Symbol keywords)) : Prop extends IsPhrase symbols where
  /-- A value stands before what follows. -/
  isBehindValue : ∀ state : CodeState, (state.pastAll symbols).isBehindValue = true

variable {symbols others : List (Symbol keywords)} {symbol : Symbol keywords} {state : CodeState}

/-- Every symbol but a line end changes the state like its token. -/
theorem CodeState.past_of_noFeed (state : CodeState) (noFeed : symbol.isFeed = false) :
    state.past symbol = state.behind symbol.kind symbol.chars := by
  have kept : state.keeps symbol = true := by rw [CodeState.keeps, noFeed]; rfl
  rw [CodeState.past, if_pos kept]

/-- All symbols of a phrase become tokens. -/
theorem CodeState.emitted_of_noFeed (noFeed : ∀ symbol ∈ symbols, symbol.isFeed = false) :
    state.emitted symbols = symbols := by
  induction symbols generalizing state with
  | nil => rfl
  | cons symbol symbols ih =>
    have first : state.keeps symbol = true := by
      rw [CodeState.keeps, noFeed symbol List.mem_cons_self]
      rfl
    rw [CodeState.emitted, if_pos first,
      ih fun other member => noFeed other (List.mem_cons_of_mem _ member)]

theorem isPhrase_nil : IsPhrase ([] : List (Symbol keywords)) :=
  ⟨fun _ member => absurd member List.not_mem_nil, fun _ member => absurd member List.not_mem_nil,
    fun _ => trivial, fun _ => rfl⟩

/-- Two phrases one after the other form a phrase. -/
theorem IsPhrase.append (first : IsPhrase symbols) (second : IsPhrase others) :
    IsPhrase (symbols ++ others) := by
  refine ⟨List.forall_mem_append.mpr ⟨first.noFeed, second.noFeed⟩,
    List.forall_mem_append.mpr ⟨first.noAssign, second.noAssign⟩, fun state => ?_, fun state => ?_⟩
  · exact (CodeState.fits_append _ _ _).mpr ⟨first.fits state, second.fits _⟩
  · rw [CodeState.pastAll_append, second.balanced, first.balanced]

/-- Whether the place of a symbol of some kind matters: brackets, what is read by what stands
before it, comments and the sign of an assignment. -/
def isPlaced : TokenKind → Bool
  | .leftParen | .leftBracket | .rightParen | .rightBracket | .slash | .patternLit | .comment
  | .assign => true
  | _ => false

/-- Whether a symbol is a phrase by itself. -/
def Symbol.isPlain (symbol : Symbol keywords) : Bool :=
  !symbol.isFeed && !isPlaced symbol.kind

/-- Most symbols are phrases. -/
theorem isPhrase_singleton (plain : symbol.isPlain = true) : IsPhrase [symbol] := by
  simp only [Symbol.isPlain, Bool.and_eq_true, Bool.not_eq_true'] at plain
  obtain ⟨noFeed, unplaced⟩ := plain
  -- it is no bracket, no slash and no pattern, for which the state would matter
  have other : ∀ kind, isPlaced kind = true → symbol.kind ≠ kind := by
    rintro kind placed rfl
    rw [placed] at unplaced
    exact Bool.noConfusion unplaced
  refine ⟨by simpa using noFeed, by simpa using other .assign rfl,
    fun state => ⟨⟨?_, ?_⟩, trivial⟩, fun state => ?_⟩
  · intro slash
    exact absurd slash (other _ rfl)
  · intro pattern
    exact absurd pattern (other _ rfl)
  · show (state.past symbol).openBrackets = state.openBrackets
    rw [CodeState.past_of_noFeed state noFeed]
    show state.bracketsBehind symbol.kind = _
    unfold CodeState.bracketsBehind
    split
    · next kind => exact absurd kind (other _ rfl)
    · next kind => exact absurd kind (other _ rfl)
    · next kind => exact absurd kind (other _ rfl)
    · next kind => exact absurd kind (other _ rfl)
    · rfl

theorem IsPhrase.cons (plain : symbol.isPlain = true) (rest : IsPhrase others) :
    IsPhrase (symbol :: others) :=
  (isPhrase_singleton plain).append rest

/-- The symbol of an operator or punctuation mark is no line end. -/
theorem CodeState.past_mark (state : CodeState) (kind : TokenKind) (isMark : markChars kind ≠ []) :
    state.past (.mark kind isMark : Symbol keywords) = state.behind kind (markChars kind) :=
  CodeState.past_of_noFeed state rfl

/-- Every mark but a slash can be read wherever it stands. -/
theorem fits_mark {kind : TokenKind} {isMark : markChars kind ≠ []} (noSlash : kind ≠ .slash)
    (behindValue : Bool) : (.mark kind isMark : Symbol keywords).fits behindValue := by
  refine ⟨fun slash => absurd slash noSlash, fun pattern => ?_⟩
  have same : kind = .patternLit := pattern
  rw [same] at isMark
  exact absurd rfl isMark

/-- A phrase between parentheses or brackets is a phrase. -/
theorem IsPhrase.enclosed {opening closing : TokenKind} (inner : IsPhrase symbols)
    {isOpening : markChars opening ≠ []} {isClosing : markChars closing ≠ []}
    (opens : opening = .leftParen ∨ opening = .leftBracket)
    (closes : closing = .rightParen ∨ closing = .rightBracket) :
    IsPhrase (.mark opening isOpening :: (symbols ++ [.mark closing isClosing])) := by
  have opened : opening ≠ .slash ∧ opening ≠ .assign := by
    rcases opens with rfl | rfl <;> decide
  have closed : closing ≠ .slash ∧ closing ≠ .assign := by
    rcases closes with rfl | rfl <;> decide
  refine ⟨?_, ?_, fun state => ⟨fits_mark opened.1 _, ?_⟩, fun state => ?_⟩
  · intro symbol member
    rcases List.mem_cons.mp member with rfl | further
    · rfl
    rcases List.mem_append.mp further with within | last
    · exact inner.noFeed symbol within
    · rw [List.mem_singleton.mp last]
      rfl
  · intro symbol member
    rcases List.mem_cons.mp member with rfl | further
    · exact opened.2
    rcases List.mem_append.mp further with within | last
    · exact inner.noAssign symbol within
    · rw [List.mem_singleton.mp last]
      exact closed.2
  · exact (CodeState.fits_append _ _ _).mpr ⟨inner.fits _, fits_mark closed.1 _, trivial⟩
  · -- one more bracket is open inside, and one less behind the closing one
    have deeper : (state.past (.mark opening isOpening : Symbol keywords)).openBrackets =
        state.openBrackets + 1 := by
      rw [CodeState.past_mark]
      rcases opens with rfl | rfl <;> rfl
    have back : ∀ later : CodeState,
        (later.past (.mark closing isClosing : Symbol keywords)).openBrackets =
          later.openBrackets - 1 := by
      intro later
      rw [CodeState.past_mark]
      rcases closes with rfl | rfl <;> rfl
    have behind := CodeState.pastAll_append
      (state.past (.mark opening isOpening : Symbol keywords)) symbols [.mark closing isClosing]
    have last := back ((state.past (.mark opening isOpening : Symbol keywords)).pastAll symbols)
    rw [inner.balanced, deeper, Nat.add_sub_cancel] at last
    exact (congrArg CodeState.openBrackets behind).trans last

/-! ## Lists -/

/-- Some rows of symbols with a separator between them. -/
def separated (separator : Symbol keywords) : List (List (Symbol keywords)) → List (Symbol keywords)
  | [] => []
  | first :: others => first ++ others.flatMap fun item => separator :: item

/-- Phrases with commas between them form a phrase. -/
theorem isPhrase_separated {items : List (List (Symbol keywords))}
    (phrases : ∀ item ∈ items, IsPhrase item) : IsPhrase (separated .comma items) := by
  cases items with
  | nil => exact isPhrase_nil
  | cons first others =>
    refine (phrases first List.mem_cons_self).append ?_
    have further : ∀ item ∈ others, IsPhrase item :=
      fun item member => phrases item (List.mem_cons_of_mem _ member)
    induction others with
    | nil => exact isPhrase_nil
    | cons next others ih =>
      rw [List.flatMap_cons]
      refine ((further next List.mem_cons_self).cons rfl).append (ih ?_ ?_)
      · intro item member
        rcases List.mem_cons.mp member with rfl | later
        · exact phrases _ List.mem_cons_self
        · exact further item (List.mem_cons_of_mem _ later)
      · exact fun item member => further item (List.mem_cons_of_mem _ member)

/-! ## Phrases that end with a value -/

/-- Behind a symbol that ends a value stands a value. -/
theorem CodeState.isBehindValue_past (state : CodeState) (ends : symbol.kind.endsValue = true) :
    (state.past symbol).isBehindValue = true := by
  have noFeed : symbol.isFeed = false := by
    cases symbol with
    | newline => exact Bool.noConfusion ends
    | _ => rfl
  rw [CodeState.past_of_noFeed state noFeed]
  have visible : symbol.kind ≠ .comment := by
    intro same
    rw [same] at ends
    exact absurd ends (by decide)
  unfold CodeState.isBehindValue CodeState.behind
  rw [if_neg visible]
  exact ends

/-- A phrase ends with a value if its last symbol does. -/
theorem IsPhrase.isValue (phrase : IsPhrase (symbols ++ [symbol]))
    (ends : symbol.kind.endsValue = true) : IsValue (symbols ++ [symbol]) := by
  refine ⟨phrase, fun state => ?_⟩
  rw [CodeState.pastAll_append]
  exact CodeState.isBehindValue_past _ ends

/-- A symbol that ends a value is a value unless its place matters. -/
theorem isValue_singleton (plain : symbol.isPlain = true) (ends : symbol.kind.endsValue = true) :
    IsValue [symbol] := by
  have phrase : IsPhrase ([] ++ [symbol]) := isPhrase_singleton plain
  exact phrase.isValue ends

/-- A phrase before a value makes a value. -/
theorem IsPhrase.append_value (first : IsPhrase symbols) (second : IsValue others) :
    IsValue (symbols ++ others) := by
  refine ⟨first.append second.toIsPhrase, fun state => ?_⟩
  rw [CodeState.pastAll_append]
  exact second.isBehindValue _

/-- A value between parentheses or brackets is a value. -/
theorem IsPhrase.enclosed_value {opening closing : TokenKind} (inner : IsPhrase symbols)
    {isOpening : markChars opening ≠ []} {isClosing : markChars closing ≠ []}
    (opens : opening = .leftParen ∨ opening = .leftBracket)
    (closes : closing = .rightParen ∨ closing = .rightBracket) :
    IsValue (.mark opening isOpening :: (symbols ++ [.mark closing isClosing])) := by
  have phrase : IsPhrase ((.mark opening isOpening :: symbols) ++ [.mark closing isClosing]) :=
    inner.enclosed opens closes
  refine phrase.isValue ?_
  show closing.endsValue = true
  rcases closes with rfl | rfl <;> rfl

/-- A value, an operator and a phrase make a phrase; the operator may be a slash. -/
theorem IsValue.operator {kind : TokenKind} {isMark : markChars kind ≠ []} (left : IsValue symbols)
    (unplaced : kind = .slash ∨ isPlaced kind = false) (right : IsValue others) :
    IsValue (symbols ++ .mark kind isMark :: others) := by
  have noFeed : (Symbol.mark kind isMark : Symbol keywords).isFeed = false := rfl
  by_cases slash : kind = .slash
  · -- a slash fits because the symbols before it end with a value
    subst slash
    refine ⟨⟨?_, ?_, fun state => ?_, fun state => ?_⟩, fun state => ?_⟩
    · exact List.forall_mem_append.mpr ⟨left.noFeed, List.forall_mem_cons.mpr ⟨rfl, right.noFeed⟩⟩
    · exact List.forall_mem_append.mpr
        ⟨left.noAssign, List.forall_mem_cons.mpr ⟨TokenKind.noConfusion, right.noAssign⟩⟩
    · refine (CodeState.fits_append _ _ _).mpr ⟨left.fits state, ⟨?_, ?_⟩, right.fits _⟩
      · exact fun _ => left.isBehindValue state
      · exact fun pattern => TokenKind.noConfusion pattern
    · rw [CodeState.pastAll_append]
      show (((state.pastAll symbols).past _).pastAll others).openBrackets = _
      rw [right.balanced, CodeState.past_mark]
      exact left.balanced state
    · rw [CodeState.pastAll_append]
      exact right.isBehindValue _
  · -- an operator that fits everywhere is a phrase of its own
    have plain : (Symbol.mark kind isMark : Symbol keywords).isPlain = true := by
      have other : isPlaced kind = false := unplaced.resolve_left slash
      rw [Symbol.isPlain, noFeed]
      show (!isPlaced kind) = true
      rw [other]
      rfl
    exact left.toIsPhrase.append_value ((isPhrase_singleton plain).append_value right)

end DocGrammar
