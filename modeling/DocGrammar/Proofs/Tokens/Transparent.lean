import DocGrammar.Proofs.Tokens.Reads
import Mathlib.Data.List.Basic

/-! # Layout between tokens

White space and comments between two tokens do the same as a single line feed if a line ends among
them. The lexer reads the code before them, where a comment at its end may take up what stands on
the rest of the line, then at most one line end, and then it goes on in a state that differs at
most in its position.

* **`IsLayout`** — white space and comments.
* **`codeOutcome`** — what one gets to see of the tokens of a text.
* **`codeOutcome_layout`** — layout may be replaced by a line feed. -/

namespace DocGrammar

/-! ## Layout -/

/-- Layout: white space, and comments up to the ends of their lines. -/
inductive IsLayout : List Char → Prop where
  /-- There may be none. -/
  | nil : IsLayout []
  /-- A space or a line feed. -/
  | blank {char : Char} {rest : List Char} (isBlank : isCodeSpace char = true ∨ char = '\n')
      (behind : IsLayout rest) : IsLayout (char :: rest)
  /-- A comment with the line feed that ends it. -/
  | comment {line rest : List Char} (isLine : '\n' ∉ line) (behind : IsLayout rest) :
      IsLayout ('/' :: '/' :: (line ++ '\n' :: rest))

/-- Whether a text starts with white space, if it is not empty. -/
def StartsBlank (chars : List Char) : Prop :=
  ∀ char ∈ chars.head?, isCodeSpace char = true ∨ char = '\n'

/-- What is left of layout at the end of its first line is layout. -/
theorem IsLayout.dropWhile {chars : List Char} (layout : IsLayout chars) :
    IsLayout (chars.dropWhile (· ≠ '\n')) := by
  induction layout with
  | nil => exact .nil
  | @blank char rest isBlank behind ih =>
    by_cases feed : char = '\n'
    · rw [List.dropWhile_cons_of_neg (by simp [feed])]
      exact .blank isBlank behind
    · rw [List.dropWhile_cons_of_pos (by simp [feed])]
      exact ih
  | @comment line rest isLine behind ih =>
    have inside : ∀ char ∈ line, decide (char ≠ '\n') = true := fun char member =>
      decide_eq_true fun same => isLine (same ▸ member)
    rw [List.dropWhile_cons_of_pos (by decide), List.dropWhile_cons_of_pos (by decide),
      List.dropWhile_append_of_pos inside, List.dropWhile_cons_of_neg (by decide)]
    exact .blank (.inr rfl) behind

/-! ## What one gets to see -/

variable {keywords : KeywordTable} {file : String} {state mark later : CodeState}
  {chars more rest layout : List Char} {tokens : List Token}

/-- What one gets to see of the tokens of a text: what they say, without the comments, or the
message of the fault that there is. -/
def codeOutcome : Except Diagnostic (List Token) → Except String (List (TokenKind × String))
  | .error diagnostic => .error diagnostic.message
  | .ok tokens => .ok (uncommented tokens)

/-- Tokens in front of others are seen in front of them. -/
theorem codeOutcome_map (tokens : List Token) (result : Except Diagnostic (List Token)) :
    codeOutcome (result.map (tokens ++ ·)) =
      (codeOutcome result).map (uncommented tokens ++ ·) := by
  cases result with
  | error => rfl
  | ok others => exact congrArg Except.ok (uncommented_append tokens others)

/-- One gets to see the same from states that differ at most in their positions. -/
theorem codeOutcome_alike (file' : String) (alike : mark.Alike state) (chars : List Char) :
    codeOutcome (codeTokensFrom keywords file' mark chars) =
      codeOutcome (codeTokensFrom keywords file state chars) := by
  -- one token in front of others is the same in both runs
  have front : ∀ {token other : Token} {result result' : Except Diagnostic (List Token)},
      token.said = other.said → codeOutcome result = codeOutcome result' →
      codeOutcome (result >>= fun others => return token :: others) =
        codeOutcome (result' >>= fun others => return other :: others) := by
    intro token other result result' said same
    have seen : uncommented [token] = uncommented [other] := by
      rw [uncommented_eq_filter, uncommented_eq_filter, List.map_singleton, List.map_singleton,
        said]
    show codeOutcome (result.map ([token] ++ ·)) = codeOutcome (result'.map ([other] ++ ·))
    rw [codeOutcome_map, codeOutcome_map, seen, same]
  fun_induction codeTokensFrom keywords file state chars generalizing mark with
  | case1 state =>
    rw [codeTokensFrom_nil]
    rfl
  | case2 state char rest isSpace ih =>
    rw [codeTokensFrom, if_pos isSpace]
    exact ih (((CodeState.alike_skip _ _).trans alike).trans (CodeState.alike_skip _ _).symm)
  | case3 state rest ends space ih =>
    rw [codeTokensFrom, if_neg (by decide), if_pos rfl, if_pos (alike.endsLine.trans ends)]
    exact front rfl (ih (alike.behind _ _ _))
  | case4 state rest ends space ih =>
    rw [codeTokensFrom, if_neg (by decide), if_pos rfl, if_neg (by rwa [alike.endsLine])]
    exact ih (((CodeState.alike_skip _ _).trans alike).trans (CodeState.alike_skip _ _).symm)
  | case5 state char rest space noFeed fault scanned =>
    rw [codeTokensFrom, if_neg space, if_neg noFeed, alike.isBehindValue, scanned]
    rfl
  | case6 state char rest space noFeed lexeme scanned chars =>
    rename_i ih
    rw [codeTokensFrom, if_neg space, if_neg noFeed, alike.isBehindValue, scanned]
    exact front rfl (ih (alike.behind _ _ _))

/-! ## Reading up to positions -/

/-- A text is read as tokens that say something besides comments, up to a state that differs from
another one at most in its position, and up to the text that is left. -/
def ReadsAs (keywords : KeywordTable) (file : String) (state : CodeState) (chars : List Char)
    (said : List (TokenKind × String)) (mark : CodeState) (rest : List Char) : Prop :=
  ∃ tokens later, Reads keywords file state chars tokens later rest ∧
    uncommented tokens = said ∧ later.Alike mark

namespace ReadsAs

variable {said others : List (TokenKind × String)} {last : CodeState}

/-- What is left may be read further from any such state. -/
theorem trans (first : ReadsAs keywords file state chars said mark more)
    (second : ∀ like : CodeState, like.Alike mark →
      ReadsAs keywords file like more others last rest) :
    ReadsAs keywords file state chars (said ++ others) last rest := by
  obtain ⟨tokens, later, reads, rfl, alike⟩ := first
  obtain ⟨behind, final, further, rfl, alike'⟩ := second later alike
  exact ⟨tokens ++ behind, final, reads.trans further, uncommented_append tokens behind, alike'⟩

/-- The state behind what is read matters only up to its position. -/
theorem congr (reads : ReadsAs keywords file state chars said mark rest)
    (alike : mark.Alike last) : ReadsAs keywords file state chars said last rest := by
  obtain ⟨tokens, later, reads, same, alike'⟩ := reads
  exact ⟨tokens, later, reads, same, alike'.trans alike⟩

/-- One gets to see what is read in front of what is left. -/
theorem codeOutcome_eq (reads : ReadsAs keywords file state chars said mark rest) :
    codeOutcome (codeTokensFrom keywords file state chars) =
      (codeOutcome (codeTokensFrom keywords file mark rest)).map (said ++ ·) := by
  obtain ⟨tokens, later, reads, rfl, alike⟩ := reads
  rw [reads.codeTokensFrom_eq, codeOutcome_map, codeOutcome_alike file alike]

theorem space {char : Char} (isSpace : isCodeSpace char = true) (state : CodeState)
    (rest : List Char) : ReadsAs keywords file state (char :: rest) [] state rest :=
  ⟨[], _, .space isSpace .done, rfl, state.alike_skip [char]⟩

theorem goOn (goesOn : state.endsLine = false) (rest : List Char) :
    ReadsAs keywords file state ('\n' :: rest) [] state rest :=
  ⟨[], _, .goOn goesOn .done, rfl, state.alike_skip ['\n']⟩

theorem feed (ends : state.endsLine = true) (rest : List Char) :
    ReadsAs keywords file state ('\n' :: rest) [(.newline, "\n")]
      (state.behind .newline ['\n']) rest :=
  ⟨_, _, .feed ends .done, rfl, .refl _⟩

/-- A comment is read without a trace. -/
theorem comment {line : List Char} (isLine : '\n' ∉ line) (state : CodeState)
    (stops : rest.head?.all (· = '\n') = true) :
    ReadsAs keywords file state ('/' :: '/' :: (line ++ rest)) [] state rest :=
  ⟨_, _, .lexeme (.comment line isLine) rfl stops .done, rfl, state.alike_comment _⟩

end ReadsAs

/-! ## Reading layout -/

namespace IsLayout

/-- Where no line can end, layout is read without a trace. -/
theorem readsAs_nothing (isLayout : IsLayout layout) (goesOn : state.endsLine = false)
    (rest : List Char) : ReadsAs keywords file state (layout ++ rest) [] state rest := by
  -- the position moves on with every step, so the induction is for all states where no line ends
  induction isLayout generalizing state with
  | nil => exact ⟨[], state, .done, rfl, .refl state⟩
  | blank isBlank _ ih =>
    have behind := fun (like : CodeState) (alike : like.Alike state) =>
      (ih (alike.endsLine.trans goesOn)).congr alike
    rcases isBlank with isSpace | rfl
    · exact (ReadsAs.space isSpace state _).trans behind
    · exact (ReadsAs.goOn goesOn _).trans behind
  | comment isLine _ ih =>
    rw [List.cons_append, List.cons_append, List.append_assoc, List.cons_append]
    refine (ReadsAs.comment isLine state rfl).trans fun like alike => ?_
    have goesOn' := alike.endsLine.trans goesOn
    refine ReadsAs.congr ?_ alike
    exact (ReadsAs.goOn goesOn' _).trans fun other same =>
      (ih (same.endsLine.trans goesOn')).congr same

/-- Where a line can end, layout with a line feed is read as the end of the line. -/
theorem readsAs_newline (isLayout : IsLayout layout) (feed : '\n' ∈ layout)
    (ends : state.endsLine = true) (rest : List Char) :
    ReadsAs keywords file state (layout ++ rest) [(.newline, "\n")]
      (state.behind .newline ['\n']) rest := by
  -- behind the line feed no line can end, so what follows leaves no trace
  have further : ∀ {after : List Char}, IsLayout after → ∀ {state : CodeState},
      state.endsLine = true → ReadsAs keywords file state ('\n' :: (after ++ rest))
        [(.newline, "\n")] (state.behind .newline ['\n']) rest := by
    intro after isLayout state ends
    have ended : (state.behind .newline ['\n']).endsLine = false := by
      simp [CodeState.endsLine, CodeState.behind]
    exact (ReadsAs.feed ends _).trans fun like alike =>
      (isLayout.readsAs_nothing (alike.endsLine.trans ended) rest).congr alike
  induction isLayout generalizing state with
  | nil => exact absurd feed List.not_mem_nil
  | @blank char after isBlank behind ih =>
    by_cases isFeed : char = '\n'
    · subst isFeed
      exact further behind ends
    · have isSpace := isBlank.resolve_right isFeed
      have later := (List.mem_cons.mp feed).resolve_left (Ne.symm isFeed)
      exact (ReadsAs.space isSpace state _).trans fun like alike =>
        (ih later (alike.endsLine.trans ends)).congr (alike.behind _ _ _)
  | comment isLine behind ih =>
    rw [List.cons_append, List.cons_append, List.append_assoc, List.cons_append]
    exact (ReadsAs.comment isLine state rfl).trans fun like alike =>
      (further behind (alike.endsLine.trans ends)).congr (alike.behind _ _ _)

end IsLayout

/-- What a line feed is read as. -/
def CodeState.feedSaid (state : CodeState) : List (TokenKind × String) :=
  if state.endsLine then [(.newline, "\n")] else []

/-- The state behind a line feed. -/
def CodeState.pastFeed (state : CodeState) : CodeState :=
  if state.endsLine then state.behind .newline ['\n'] else state

/-- Layout with a line feed is read as a line feed is. -/
theorem IsLayout.readsAs (isLayout : IsLayout layout) (feed : '\n' ∈ layout)
    (alike : mark.Alike state) (rest : List Char) :
    ReadsAs keywords file mark (layout ++ rest) state.feedSaid state.pastFeed rest := by
  unfold CodeState.feedSaid CodeState.pastFeed
  by_cases ends : state.endsLine = true
  · rw [if_pos ends, if_pos ends]
    exact (isLayout.readsAs_newline feed (alike.endsLine.trans ends) rest).congr (alike.behind ..)
  · rw [if_neg ends, if_neg ends]
    have goesOn : mark.endsLine = false := alike.endsLine.trans (Bool.eq_false_iff.mpr ends)
    exact (isLayout.readsAs_nothing goesOn rest).congr alike

/-! ## Layout behind code -/

/-- A fraction is a point before a digit. -/
theorem Symbol.startsFraction_cons (char : Char) (tail : List Char) :
    startsFraction (char :: tail) = (decide (char = '.') && tail.head?.any isDigit) := by
  by_cases point : char = '.'
  · subst point
    cases tail <;> rfl
  · simp [startsFraction, point]

/-- White space is no digit. -/
theorem StartsBlank.any_isDigit (blank : StartsBlank more) : more.head?.any isDigit = false := by
  cases head : more.head? with
  | none => rfl
  | some next =>
    have space : ([' ', '\t', '\r', '\n'].all fun char => !isDigit char) = true := by
      decide
    have one : next ∈ [' ', '\t', '\r', '\n'] := by
      simpa [isCodeSpace, or_assoc] using blank next head
    simpa using List.all_eq_true.mp space next one

/-- A lexeme that ends before the end of some code ends there, too, when white space follows the
code. -/
theorem Spelling.stops_append {spelling : Spelling} (filled : chars ≠ [])
    (blank : StartsBlank more) (stops : spelling.stops chars = true) :
    spelling.stops (chars ++ more) = true := by
  obtain ⟨char, tail, rfl⟩ := List.exists_cons_of_ne_nil filled
  cases spelling with
  | mark kind isMark =>
    exact (Symbol.markStops_cons (markChars kind) char (tail ++ more) tail).trans stops
  | number numeral =>
    -- two characters decide whether a fraction follows, and the second one may be white space
    have point : Symbol.startsFraction (char :: (tail ++ more)) =
        Symbol.startsFraction (char :: tail) := by
      rw [Symbol.startsFraction_cons, Symbol.startsFraction_cons]
      cases tail with
      | nil => rw [List.nil_append, blank.any_isDigit, List.head?_nil, Option.any_none]
      | cons => rfl
    rw [Spelling.stops, List.cons_append, point]
    exact stops
  | _ => exact stops

/-- The end of a text is read without a token. -/
theorem Reads.eq_of_nil (reads : Reads keywords file state [] tokens later []) :
    tokens = [] ∧ later = state := by
  generalize none : [] = chars at reads
  cases reads with
  | done => exact ⟨rfl, rfl⟩
  | space => cases none
  | feed => cases none
  | goOn => cases none
  | lexeme spelling =>
    exact absurd (List.append_eq_nil_iff.mp none.symm).1 spelling.chars_ne_nil

/-- When white space follows some code, the code is read as before. A comment at its end takes up
what stands on the rest of the line. -/
theorem Reads.exists_readsAs (reads : Reads keywords file state chars tokens later [])
    (blank : StartsBlank more) :
    ∃ left, (left = more ∨ left = more.dropWhile (· ≠ '\n')) ∧
      ReadsAs keywords file state (chars ++ more) (uncommented tokens) later left := by
  generalize none : [] = rest at reads
  induction reads with
  | done =>
    subst none
    exact ⟨more, .inl rfl, [], _, .done, rfl, .refl _⟩
  | space isSpace _ ih =>
    obtain ⟨left, which, again, last, reads, said, alike⟩ := ih none
    exact ⟨left, which, again, last, .space isSpace reads, said, alike⟩
  | goOn goesOn _ ih =>
    obtain ⟨left, which, again, last, reads, said, alike⟩ := ih none
    exact ⟨left, which, again, last, .goOn goesOn reads, said, alike⟩
  | feed ends _ ih =>
    obtain ⟨left, which, again, last, reads, said, alike⟩ := ih none
    exact ⟨left, which, _, last, .feed ends reads, uncommented_cons_congr _ said, alike⟩
  | @lexeme state later spelling chars rest tokens fits stops behind ih =>
    by_cases inner : chars = [] ∧ spelling.isComment = true
    · -- nothing is read behind a comment at the end of the code, and the comment goes on
      obtain ⟨rfl, isComment⟩ := inner
      subst none
      obtain ⟨rfl, rfl⟩ := behind.eq_of_nil
      cases spelling with
      | comment line isLine =>
        have isLine' : '\n' ∉ line ++ more.takeWhile (· ≠ '\n') := by
          rw [List.mem_append, not_or]
          exact ⟨isLine, fun member => absurd (List.mem_takeWhile_imp member) (by decide)⟩
        have split : (Spelling.comment line isLine).chars ++ [] ++ more =
            '/' :: '/' :: (line ++ more.takeWhile (· ≠ '\n') ++ more.dropWhile (· ≠ '\n')) := by
          rw [List.append_assoc line, List.takeWhile_append_dropWhile, List.append_nil]
          rfl
        refine ⟨_, .inr rfl, ?_⟩
        rw [split]
        exact (ReadsAs.comment isLine' state (Lexeme.head?_dropWhile_feed more)).congr
          (state.alike_comment _).symm
      | _ => cases isComment
    · have stops : spelling.stops (chars ++ more) = true := by
        by_cases ended : chars = []
        · subst ended
          have other : spelling.isComment = false := by simpa using inner
          cases more with
          | nil => exact spelling.stops_nil
          | cons char more => exact Spelling.stops_blank (blank char rfl) other more
        · exact Spelling.stops_append ended blank stops
      obtain ⟨left, which, again, last, reads, said, alike⟩ := ih none
      rw [List.append_assoc]
      exact ⟨left, which, _, last, .lexeme spelling fits stops reads,
        uncommented_cons_congr _ said, alike⟩

/-- Behind code, layout with a line feed is read as a line feed is. -/
theorem Reads.readsAs_layout (reads : Reads keywords file state chars tokens later [])
    (isLayout : IsLayout layout) (blank : StartsBlank layout) (feed : '\n' ∈ layout)
    (rest : List Char) :
    ReadsAs keywords file state (chars ++ (layout ++ rest)) (uncommented tokens ++ later.feedSaid)
      later.pastFeed rest := by
  have nonempty : layout ≠ [] := List.ne_nil_of_mem feed
  have starts : StartsBlank (layout ++ rest) := by
    rw [StartsBlank, List.head?_append_of_ne_nil _ nonempty]
    exact blank
  obtain ⟨left, which, first⟩ := reads.exists_readsAs starts
  -- what is left of the layout still holds the line feed
  obtain ⟨gap, rfl, isGap, held⟩ : ∃ gap, left = gap ++ rest ∧ IsLayout gap ∧ '\n' ∈ gap := by
    rcases which with rfl | rfl
    · exact ⟨layout, rfl, isLayout, feed⟩
    · have held : '\n' ∈ layout.dropWhile (· ≠ '\n') := by
        rw [← List.takeWhile_append_dropWhile (p := (· ≠ '\n')) (l := layout),
          List.mem_append] at feed
        exact feed.resolve_left fun member => absurd (List.mem_takeWhile_imp member) (by decide)
      refine ⟨_, ?_, isLayout.dropWhile, held⟩
      rw [List.dropWhile_append, if_neg (by simpa using List.ne_nil_of_mem held)]
  exact first.trans fun like alike => isGap.readsAs held alike rest

/-- Layout between code and what follows it may be replaced by a line feed: one gets to see the same
of the tokens, up to comments and positions, or the same message. The layout starts with white
space, and a line ends in it. -/
theorem codeOutcome_layout {file : String} {start : Position} {code : String} {tokens : List Token}
    (lexed : codeTokens keywords file start code = .ok tokens) {layout : String}
    (isLayout : IsLayout layout.toList) (blank : StartsBlank layout.toList)
    (feed : '\n' ∈ layout.toList) (rest : String) :
    codeOutcome (codeTokens keywords file start (code ++ layout ++ rest)) =
      codeOutcome (codeTokens keywords file start (code ++ "\n" ++ rest)) := by
  obtain ⟨read, later, reads, rfl⟩ := exists_reads lexed
  have line : IsLayout ['\n'] := .blank (.inr rfl) .nil
  have lineBlank : StartsBlank ['\n'] := by simp [StartsBlank]
  unfold codeTokens
  simp only [String.toList_append, List.append_assoc]
  rw [(reads.readsAs_layout isLayout blank feed _).codeOutcome_eq]
  exact (reads.readsAs_layout line lineBlank List.mem_cons_self _).codeOutcome_eq.symm

/-- Between a string and a pattern, a comment and an empty line do the same as a line feed. -/
theorem codeOutcome_layout_comment : ∃ tokens,
    codeTokens .pseudo "c" .origin "'a'" = .ok tokens ∧
    codeOutcome (codeTokens .pseudo "c" .origin ("'a'" ++ " // b\n\n" ++ "/c/")) =
      codeOutcome (codeTokens .pseudo "c" .origin ("'a'" ++ "\n" ++ "/c/")) ∧
    codeOutcome (codeTokens .pseudo "c" .origin ("'a'" ++ "\n" ++ "/c/")) =
      .ok [(.stringLit, "a"), (.newline, "\n"), (.patternLit, "c"), (.endOfInput, "")] := by
  have read : (codeTokens .pseudo "c" .origin "'a'").toOption.isSome = true := by decide +kernel
  have isLayout : IsLayout " // b\n\n".toList :=
    .blank (.inl rfl) (@IsLayout.comment [' ', 'b'] _ (by decide) (.blank (.inr rfl) .nil))
  have blank : StartsBlank " // b\n\n".toList := by
    rintro _ ⟨⟩
    exact .inl rfl
  cases lexed : codeTokens .pseudo "c" .origin "'a'" with
  | error =>
    rw [lexed] at read
    cases read
  | ok tokens =>
    exact ⟨tokens, rfl, codeOutcome_layout lexed isLayout blank (by decide) "/c/",
      by decide +kernel⟩

end DocGrammar
