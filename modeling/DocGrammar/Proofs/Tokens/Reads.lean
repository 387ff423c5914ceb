import DocGrammar.Proofs.Source.Positions
import DocGrammar.Proofs.Tokens.Layout

/-! # Reading code step by step

Code is read by steps: over a space, over a line feed, which becomes a token where it ends a line,
and over a lexeme, which becomes a token. The steps are taken one behind the other, so that a text
may be read up to any place between two of them.

* **`Reads`** — what is read of a text, and what is left.
* **`Reads.codeTokensFrom_eq`** — the lexer takes these steps.
* **`exists_reads`** — the lexer takes no others. -/

namespace DocGrammar

/-- A text is read from a state as some tokens, up to a later state and the text that is left. -/
inductive Reads (keywords : KeywordTable) (file : String) :
    CodeState → List Char → List Token → CodeState → List Char → Prop where
  /-- Nothing is read. -/
  | done {state : CodeState} {rest : List Char} : Reads keywords file state rest [] state rest
  /-- A space is read. -/
  | space {state later : CodeState} {char : Char} {chars rest : List Char} {tokens : List Token}
      (isSpace : isCodeSpace char = true)
      (behind : Reads keywords file (state.skip [char]) chars tokens later rest) :
      Reads keywords file state (char :: chars) tokens later rest
  /-- A line feed is read that ends a line. -/
  | feed {state later : CodeState} {chars rest : List Char} {tokens : List Token}
      (ends : state.endsLine = true)
      (behind : Reads keywords file (state.behind .newline ['\n']) chars tokens later rest) :
      Reads keywords file state ('\n' :: chars)
        (codeToken file state.position .newline ['\n'] ['\n'] :: tokens) later rest
  /-- A line feed is read behind which the line goes on. -/
  | goOn {state later : CodeState} {chars rest : List Char} {tokens : List Token}
      (goesOn : state.endsLine = false)
      (behind : Reads keywords file (state.skip ['\n']) chars tokens later rest) :
      Reads keywords file state ('\n' :: chars) tokens later rest
  /-- A lexeme is read. -/
  | lexeme {state later : CodeState} (spelling : Spelling) {chars rest : List Char}
      {tokens : List Token} (fits : spelling.fits state.isBehindValue = true)
      (stops : spelling.stops chars = true)
      (behind : Reads keywords file (state.behind (spelling.kind keywords) spelling.chars) chars
        tokens later rest) :
      Reads keywords file state (spelling.chars ++ chars)
        (codeToken file state.position (spelling.kind keywords) spelling.value spelling.chars ::
          tokens) later rest

variable {keywords : KeywordTable} {file : String} {state middle later : CodeState}
  {chars more rest : List Char} {tokens others : List Token}

/-- At the end of a text there is one token. -/
theorem codeTokensFrom_nil (keywords : KeywordTable) (file : String) (state : CodeState) :
    codeTokensFrom keywords file state [] =
      .ok [codeToken file state.position .endOfInput [] []] := by
  rw [codeTokensFrom]

namespace Reads

/-- What is left may be read further. -/
theorem trans (first : Reads keywords file state chars tokens middle more)
    (second : Reads keywords file middle more others later rest) :
    Reads keywords file state chars (tokens ++ others) later rest := by
  induction first with
  | done => exact second
  | space isSpace _ ih => exact .space isSpace (ih second)
  | feed ends _ ih => exact .feed ends (ih second)
  | goOn goesOn _ ih => exact .goOn goesOn (ih second)
  | lexeme spelling fits stops _ ih => exact .lexeme spelling fits stops (ih second)

/-- The lexer takes these steps: behind the tokens that are read come those of what is left. -/
theorem codeTokensFrom_eq (reads : Reads keywords file state chars tokens later rest) :
    codeTokensFrom keywords file state chars =
      (codeTokensFrom keywords file later rest).map (tokens ++ ·) := by
  induction reads with
  | @done state rest => cases codeTokensFrom keywords file state rest <;> rfl
  | space isSpace _ ih => rw [codeTokensFrom, if_pos isSpace, ih]
  | @feed _ later _ rest _ ends _ ih =>
    rw [codeTokensFrom, if_neg (by decide), if_pos rfl, if_pos ends, ih]
    cases codeTokensFrom keywords file later rest <;> rfl
  | goOn goesOn _ ih =>
    rw [codeTokensFrom, if_neg (by decide), if_pos rfl, if_neg (by rw [goesOn]; decide), ih]
  | @lexeme _ later spelling _ rest _ fits stops _ ih =>
    obtain ⟨first, others, same, space, feed, scanned⟩ :=
      spelling.scan_chars keywords fits stops
    rw [same, List.cons_append, codeTokensFrom, if_neg (by rw [space]; decide), if_neg feed,
      scanned]
    simp only [List.take_left, List.drop_left, ← same, ih]
    cases codeTokensFrom keywords file later rest <;> rfl

/-- The text that is read moves the position on. -/
theorem exists_front (reads : Reads keywords file state chars tokens later rest) :
    ∃ front, chars = front ++ rest ∧ later.position = state.position.after front := by
  induction reads with
  | done => exact ⟨[], rfl, rfl⟩
  | @space _ _ char _ _ _ _ _ ih =>
    obtain ⟨front, rfl, place⟩ := ih
    exact ⟨char :: front, rfl, place⟩
  | feed _ _ ih | goOn _ _ ih =>
    obtain ⟨front, rfl, place⟩ := ih
    exact ⟨'\n' :: front, rfl, place⟩
  | lexeme spelling _ _ _ ih =>
    obtain ⟨front, rfl, place⟩ := ih
    refine ⟨spelling.chars ++ front, (List.append_assoc _ _ _).symm, ?_⟩
    rw [place, Position.after_append]
    rfl

/-- If no word is of the kind of the end of the input, no token that is read is. -/
theorem kind_ne_endOfInput (reads : Reads keywords file state chars tokens later rest)
    (noWord : ∀ word, keywords.kindOf word ≠ .endOfInput) :
    ∀ token ∈ tokens, token.kind ≠ .endOfInput := by
  induction reads with
  | done => exact List.forall_mem_nil _
  | space _ _ ih | goOn _ _ ih => exact ih
  | feed _ _ ih => exact List.forall_mem_cons.mpr ⟨TokenKind.noConfusion, ih⟩
  | lexeme spelling _ _ _ ih =>
    refine List.forall_mem_cons.mpr ⟨?_, ih⟩
    show spelling.kind keywords ≠ .endOfInput
    cases spelling with
    | word chars => exact noWord _
    | mark kind isMark =>
      rintro same
      obtain rfl : kind = .endOfInput := same
      exact isMark rfl
    | _ => exact TokenKind.noConfusion

end Reads

/-- The lexer takes no other steps: a text that becomes tokens is read to its end. -/
theorem exists_reads (lexed : codeTokensFrom keywords file state chars = .ok tokens) :
    ∃ read later, Reads keywords file state chars read later [] ∧
      tokens = read ++ [codeToken file later.position .endOfInput [] []] := by
  fun_induction codeTokensFrom keywords file state chars generalizing tokens with
  | case1 state =>
    cases lexed
    exact ⟨[], state, .done, rfl⟩
  | case2 state char rest isSpace ih =>
    obtain ⟨read, later, reads, rfl⟩ := ih lexed
    exact ⟨read, later, .space isSpace reads, rfl⟩
  | case3 state rest ends space ih =>
    obtain ⟨others, behind, whole⟩ := exists_of_bind_ok lexed
    cases whole
    obtain ⟨read, later, reads, rfl⟩ := ih behind
    exact ⟨_ :: read, later, .feed ends reads, rfl⟩
  | case4 state rest ends space ih =>
    obtain ⟨read, later, reads, rfl⟩ := ih lexed
    exact ⟨read, later, .goOn (Bool.eq_false_iff.mpr ends) reads, rfl⟩
  | case5 => cases lexed
  | case6 state char rest space noFeed lexeme scanned chars =>
    rename_i ih
    obtain ⟨others, behind, whole⟩ := exists_of_bind_ok lexed
    cases whole
    obtain ⟨read, later, reads, rfl⟩ := ih behind
    obtain ⟨spelling, own, tail, same, rfl, rfl, fits, stops⟩ := Lexeme.isSpelled_of_scan scanned
    -- the lexer counts the characters of the lexeme, which are those of its spelling
    have taken : chars = spelling.chars := by
      show char :: (own ++ tail).take own.length = _
      rw [List.take_left, same]
    simp only [List.drop_left] at reads
    rw [taken] at reads ⊢
    rw [← List.cons_append, ← same]
    exact ⟨_ :: read, later, .lexeme spelling fits stops reads, rfl⟩

/-- A text that is read to its end leaves off at the end of the text. -/
theorem Reads.position_eq (reads : Reads keywords file state chars tokens later []) :
    later.position = state.position.after chars := by
  obtain ⟨front, rfl, place⟩ := reads.exists_front
  rw [place, List.append_nil]

/-! ## What is read besides comments -/

/-- What tokens say, without the comments among them. -/
def uncommented (tokens : List Token) : List (TokenKind × String) :=
  (tokens.filter fun token => token.kind ≠ .comment).map Token.said

/-- It depends only on what the tokens say. -/
theorem uncommented_eq_filter (tokens : List Token) :
    uncommented tokens = (tokens.map Token.said).filter fun said => said.1 ≠ .comment := by
  rw [List.filter_map]
  rfl

@[simp] theorem uncommented_nil : uncommented [] = [] := rfl

@[simp] theorem uncommented_append (tokens others : List Token) :
    uncommented (tokens ++ others) = uncommented tokens ++ uncommented others := by
  rw [uncommented, List.filter_append, List.map_append]
  rfl

theorem uncommented_cons_congr (token : Token) (same : uncommented tokens = uncommented others) :
    uncommented (token :: tokens) = uncommented (token :: others) := by
  have front : ∀ behind,
      uncommented (token :: behind) = uncommented [token] ++ uncommented behind :=
    uncommented_append [token]
  rw [front tokens, front others, same]

theorem uncommented_cons {token : Token} (other : token.kind ≠ .comment) (tokens : List Token) :
    uncommented (token :: tokens) = token.said :: uncommented tokens := by
  rw [uncommented, List.filter_cons_of_pos (by simp [other])]
  rfl

theorem uncommented_comment {token : Token} (isComment : token.kind = .comment)
    (tokens : List Token) : uncommented (token :: tokens) = uncommented tokens := by
  rw [uncommented, List.filter_cons_of_neg (by simp [isComment])]
  rfl

/-- A comment changes nothing but the position. -/
theorem CodeState.alike_comment (state : CodeState) (chars : List Char) :
    (state.behind .comment chars).Alike state := ⟨rfl, rfl⟩

end DocGrammar
