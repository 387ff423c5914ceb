import DocGrammar.Proofs.Tokens.Spelling

/-! # The layout of symbols

Symbols are laid out as text with spaces between them, as many as one likes; one space is put where
two symbols would run together. Reading the text gives back the symbols, without the line ends that
end no line.

* **`layout`** — the text of some symbols, given the gaps around them.
* **`CodeState.emitted`** — the symbols that become tokens.
* **`codeTokens_layout`** — the tokens of a laid out text say the symbols that become tokens. -/

namespace DocGrammar

variable {keywords : KeywordTable}

/-! ## Laying out -/

/-- The spaces between two symbols. -/
abbrev Gap : Type := {spaces : List Char // spaces.all isCodeSpace = true}

/-- A symbol before a text. A space keeps them apart if they would run together. -/
def Symbol.before (symbol : Symbol keywords) (tail : List Char) : List Char :=
  symbol.chars ++ if symbol.stops tail then tail else ' ' :: tail

/-- The text of some symbols, with a gap before each of them and one behind the last. -/
def layout (gaps : Nat → Gap) : List (Symbol keywords) → List Char
  | [] => (gaps 0).val
  | symbol :: others =>
    (gaps 0).val ++ symbol.before (layout (fun place => gaps (place + 1)) others)

/-! ## States behind symbols -/

namespace CodeState

/-- Two states that differ at most in their positions. -/
structure Alike (state other : CodeState) : Prop where
  /-- The same number of brackets is open. -/
  openBrackets : state.openBrackets = other.openBrackets
  /-- The same token stands before. -/
  previous : state.previous = other.previous

variable {state other mark : CodeState}

theorem Alike.refl (state : CodeState) : state.Alike state := ⟨rfl, rfl⟩

theorem Alike.symm (alike : state.Alike other) : other.Alike state :=
  ⟨alike.openBrackets.symm, alike.previous.symm⟩

theorem Alike.trans (first : state.Alike other) (second : other.Alike mark) : state.Alike mark :=
  ⟨first.openBrackets.trans second.openBrackets, first.previous.trans second.previous⟩

theorem Alike.endsLine (alike : state.Alike other) : state.endsLine = other.endsLine := by
  unfold CodeState.endsLine
  rw [alike.openBrackets, alike.previous]

theorem Alike.isBehindValue (alike : state.Alike other) :
    state.isBehindValue = other.isBehindValue := by
  unfold CodeState.isBehindValue
  rw [alike.previous]

theorem Alike.behind (alike : state.Alike other) (kind : TokenKind) (chars more : List Char) :
    (state.behind kind chars).Alike (other.behind kind more) := by
  refine ⟨?_, ?_⟩
  · show state.bracketsBehind kind = other.bracketsBehind kind
    unfold bracketsBehind
    rw [alike.openBrackets]
  · show (if kind = .comment then state.previous else some kind) = _
    rw [alike.previous]
    rfl

/-- Characters without a token change nothing but the position. -/
theorem alike_skip (state : CodeState) (chars : List Char) : (state.skip chars).Alike state :=
  ⟨rfl, rfl⟩

/-- Whether a symbol becomes a token: a line end does only if it ends the line. -/
def keeps (state : CodeState) (symbol : Symbol keywords) : Bool :=
  !symbol.isFeed || state.endsLine

/-- The state behind a symbol. -/
def past (state : CodeState) (symbol : Symbol keywords) : CodeState :=
  if state.keeps symbol then state.behind symbol.kind symbol.chars else state.skip symbol.chars

/-- The state behind some symbols. -/
def pastAll (state : CodeState) (symbols : List (Symbol keywords)) : CodeState :=
  symbols.foldl past state

/-- The symbols that become tokens. -/
def emitted (state : CodeState) : List (Symbol keywords) → List (Symbol keywords)
  | [] => []
  | symbol :: others =>
    if state.keeps symbol then symbol :: emitted (state.past symbol) others
    else emitted (state.past symbol) others

/-- Whether each symbol can be read where it stands. -/
def Fits (state : CodeState) : List (Symbol keywords) → Prop
  | [] => True
  | symbol :: others => symbol.fits state.isBehindValue ∧ Fits (state.past symbol) others

theorem pastAll_append (state : CodeState) (symbols others : List (Symbol keywords)) :
    state.pastAll (symbols ++ others) = (state.pastAll symbols).pastAll others := by
  unfold pastAll
  rw [List.foldl_append]

theorem emitted_append (state : CodeState) (symbols others : List (Symbol keywords)) :
    state.emitted (symbols ++ others) =
      state.emitted symbols ++ (state.pastAll symbols).emitted others := by
  induction symbols generalizing state with
  | nil => rfl
  | cons symbol symbols ih =>
    have rest := ih (state.past symbol)
    rw [List.cons_append, emitted, emitted, rest]
    split <;> rfl

theorem fits_append (state : CodeState) (symbols others : List (Symbol keywords)) :
    state.Fits (symbols ++ others) ↔
      state.Fits symbols ∧ (state.pastAll symbols).Fits others := by
  induction symbols generalizing state with
  | nil => exact (and_iff_right trivial).symm
  | cons symbol symbols ih =>
    show _ ∧ (state.past symbol).Fits (symbols ++ others) ↔ _
    rw [ih, ← and_assoc]
    rfl

end CodeState

/-! ## Counting tokens -/

/-- The number of symbols that become tokens wherever they stand. -/
def weight (symbols : List (Symbol keywords)) : Nat :=
  symbols.countP fun symbol => !symbol.isFeed

@[simp] theorem weight_nil : weight ([] : List (Symbol keywords)) = 0 := rfl

@[simp] theorem weight_append (symbols others : List (Symbol keywords)) :
    weight (symbols ++ others) = weight symbols + weight others := List.countP_append

theorem weight_cons {symbol : Symbol keywords} (noFeed : symbol.isFeed = false)
    (others : List (Symbol keywords)) : weight (symbol :: others) = weight others + 1 := by
  refine List.countP_cons_of_pos ?_
  rw [noFeed]
  rfl

@[simp] theorem weight_mark (kind : TokenKind) (isMark : markChars kind ≠ [])
    (others : List (Symbol keywords)) :
    weight (.mark kind isMark :: others) = weight others + 1 := weight_cons rfl others

@[simp] theorem weight_name (name : Identifier keywords) (others : List (Symbol keywords)) :
    weight (.name name :: others) = weight others + 1 := weight_cons rfl others

/-- There are at least as many tokens as symbols that become tokens wherever they stand. -/
theorem weight_le_length_emitted (state : CodeState) (symbols : List (Symbol keywords)) :
    weight symbols ≤ (state.emitted symbols).length := by
  induction symbols generalizing state with
  | nil => exact Nat.le_refl _
  | cons symbol others ih =>
    have rest := ih (state.past symbol)
    rw [CodeState.emitted]
    cases feed : symbol.isFeed with
    | true =>
      -- a line end weighs nothing, whether it becomes a token or not
      have light : weight (symbol :: others) = weight others := by
        refine List.countP_cons_of_neg ?_
        rw [feed]
        exact Bool.false_ne_true
      rw [light]
      split
      · exact Nat.le_succ_of_le rest
      · exact rest
    | false =>
      have kept : state.keeps symbol = true := by
        rw [CodeState.keeps, feed]
        rfl
      rw [if_pos kept, weight_cons feed]
      exact Nat.succ_le_succ rest

/-! ## Reading what is laid out -/

variable {file : String}

open CodeState

/-- Spaces form no token. -/
theorem codeTokensFrom_spaces (file : String) (keywords : KeywordTable) (state : CodeState)
    {spaces : List Char}
    (all : spaces.all isCodeSpace = true) (tail : List Char) :
    ∃ behind, behind.Alike state ∧
      codeTokensFrom keywords file state (spaces ++ tail) =
        codeTokensFrom keywords file behind tail := by
  induction spaces generalizing state with
  | nil => exact ⟨state, .refl state, rfl⟩
  | cons char others ih =>
    rw [List.all_cons, Bool.and_eq_true] at all
    obtain ⟨behind, alike, same⟩ := ih (state.skip [char]) all.2
    refine ⟨behind, alike.trans (alike_skip state [char]), ?_⟩
    rw [List.cons_append, codeTokensFrom, if_pos all.1, same]

/-- The spelling of a symbol becomes one token that tells the symbol, unless it is a line end that
ends no line. -/
theorem codeTokensFrom_chars (file : String) (state : CodeState) (symbol : Symbol keywords)
    (fits : symbol.fits state.isBehindValue) {tail : List Char}
    (stops : symbol.stops tail = true) :
    if state.keeps symbol then
      ∃ token, token.Tells symbol ∧
        codeTokensFrom keywords file state (symbol.chars ++ tail) = do
          let others ← codeTokensFrom keywords file (state.past symbol) tail
          return token :: others
    else
      codeTokensFrom keywords file state (symbol.chars ++ tail) =
        codeTokensFrom keywords file (state.past symbol) tail := by
  cases feed : symbol.isFeed with
  | true =>
    cases symbol with
    | newline =>
      -- a line end is the one symbol that the lexer may skip
      have space : isCodeSpace '\n' = false := by decide
      have read : codeTokensFrom keywords file state ('\n' :: tail) =
          if state.endsLine then do
            let others ← codeTokensFrom keywords file (state.behind .newline ['\n']) tail
            return codeToken file state.position .newline ['\n'] ['\n'] :: others
          else codeTokensFrom keywords file (state.skip ['\n']) tail := by
        rw [codeTokensFrom, space, if_neg Bool.false_ne_true, if_pos rfl]
      have kept : state.keeps (Symbol.newline : Symbol keywords) = state.endsLine := rfl
      have past : state.past (Symbol.newline : Symbol keywords) =
          if state.endsLine then state.behind .newline ['\n'] else state.skip ['\n'] := rfl
      rw [kept, past]
      by_cases ends : state.endsLine = true
      · rw [if_pos ends, if_pos ends]
        refine ⟨codeToken file state.position .newline ['\n'] ['\n'], ⟨rfl, rfl⟩, ?_⟩
        exact read.trans (if_pos ends)
      · rw [if_neg ends, if_neg ends]
        exact read.trans (if_neg ends)
    | _ => exact absurd feed Bool.false_ne_true
  | false =>
    have kept : state.keeps symbol = true := by rw [keeps, feed]; rfl
    obtain ⟨first, others, chars, space, plain, scanned⟩ := symbol.scan_chars feed fits stops
    rw [past, if_pos kept, if_pos kept]
    refine ⟨codeToken file state.position symbol.kind symbol.value.toList symbol.chars,
      ⟨rfl, String.ofList_toList⟩, ?_⟩
    rw [chars, List.cons_append, codeTokensFrom, space, if_neg Bool.false_ne_true, if_neg plain,
      scanned]
    simp only [List.take_left, List.drop_left]

/-- The tokens of a laid out text say the symbols that become tokens, up to the end of the
input. -/
theorem codeTokensFrom_layout (symbols : List (Symbol keywords)) (gaps : Nat → Gap)
    {state mark : CodeState} (alike : state.Alike mark) (fits : mark.Fits symbols) :
    ∃ tokens last, codeTokensFrom keywords file state (layout gaps symbols) =
      .ok (tokens ++ [last]) ∧
      Says tokens (mark.emitted symbols) ∧ last.kind = .endOfInput := by
  induction symbols generalizing gaps state mark with
  | nil =>
    obtain ⟨behind, _, same⟩ :=
      codeTokensFrom_spaces file keywords state (gaps 0).property []
    refine ⟨[], codeToken file behind.position .endOfInput [] [], ?_, .nil, rfl⟩
    rw [layout, ← List.append_nil (gaps 0).val, same, codeTokensFrom]
    rfl
  | cons symbol others ih =>
    obtain ⟨here, further⟩ := fits
    obtain ⟨start, alikeStart, sameStart⟩ :=
      codeTokensFrom_spaces file keywords state (gaps 0).property
        (symbol.before (layout (fun place => gaps (place + 1)) others))
    have startMark : start.Alike mark := alikeStart.trans alike
    have gap : [' '].all isCodeSpace = true := by decide
    -- what stands behind the symbol, with the space that keeps it apart
    obtain ⟨tail, text, stops, behind⟩ : ∃ tail,
        symbol.before (layout (fun place => gaps (place + 1)) others) = symbol.chars ++ tail ∧
        symbol.stops tail = true ∧ ∀ later : CodeState, ∃ last, last.Alike later ∧
          codeTokensFrom keywords file later tail =
            codeTokensFrom keywords file last (layout (fun place => gaps (place + 1)) others) := by
      unfold Symbol.before
      by_cases apart : symbol.stops (layout (fun place => gaps (place + 1)) others) = true
      · exact ⟨_, by rw [if_pos apart], apart, fun later => ⟨later, .refl later, rfl⟩⟩
      · refine ⟨_, by rw [if_neg apart], symbol.stops_space _, fun later => ?_⟩
        exact codeTokensFrom_spaces file keywords later gap _
    have read := codeTokensFrom_chars file start symbol
      (by rw [startMark.isBehindValue]; exact here) stops
    have kept : start.keeps symbol = mark.keeps symbol := by
      unfold keeps
      rw [startMark.endsLine]
    have pastAlike : (start.past symbol).Alike (mark.past symbol) := by
      unfold past
      rw [kept]
      split
      · exact startMark.behind _ _ _
      · exact ((alike_skip _ _).trans startMark).trans (alike_skip _ _).symm
    obtain ⟨next, alikeNext, sameNext⟩ := behind (start.past symbol)
    obtain ⟨tokens, last, outcome, told, ends⟩ :=
      ih (fun place => gaps (place + 1)) (alikeNext.trans pastAlike) further
    rw [layout, sameStart, text, emitted, ← kept]
    by_cases keep : start.keeps symbol = true
    · rw [if_pos keep] at read ⊢
      obtain ⟨token, tells, same⟩ := read
      refine ⟨token :: tokens, last, ?_, .cons tells told, ends⟩
      rw [same, sameNext, outcome]
      rfl
    · rw [if_neg keep] at read ⊢
      exact ⟨tokens, last, by rw [read, sameNext, outcome], told, ends⟩

/-- The tokens of a whole text say the symbols that become tokens, up to the end of the input. -/
theorem codeTokens_layout (file : String) (symbols : List (Symbol keywords)) (gaps : Nat → Gap)
    (start : Position)
    (fits : (CodeState.start start).Fits symbols) :
    ∃ tokens last,
      codeTokens keywords file start (String.ofList (layout gaps symbols)) =
        .ok (tokens ++ [last]) ∧
      Says tokens ((CodeState.start start).emitted symbols) ∧ last.kind = .endOfInput := by
  unfold codeTokens
  rw [String.toList_ofList]
  exact codeTokensFrom_layout symbols gaps (.refl _) fits

end DocGrammar
