import DocGrammar.Proofs.Tokens.Reads
import DocGrammar.Proofs.Tokens.Spelled

/-! # Printed tokens are read back

Tokens are printed with single spaces between them: names, numbers and operators as they are,
strings between double quotes, patterns between slashes. Whatever text the tokens come from, they
are read back from what is printed. The lexer looks at the brackets that are open and at the token
before, and both are the same behind the tokens of the text and behind those that are printed.

* **`Token.printed`** — how a token is printed.
* **`printedText`** — how tokens are printed.
* **`codeTokens_printedText`** — printed tokens are read back. -/

namespace DocGrammar

/-! ## Printing -/

/-- How a character of a string is printed. -/
def printedChar (char : Char) : List Char :=
  if char = '\n' then ['\\', 'n']
  else if char = '"' || char = '\\' then ['\\', char]
  else [char]

/-- How a token is printed. -/
def Token.printed (token : Token) : List Char :=
  match token.kind with
  | .stringLit => '"' :: (token.value.toList.flatMap printedChar ++ ['"'])
  | .patternLit => '/' :: (token.value.toList ++ ['/'])
  | .newline => ['\n']
  | _ => token.value.toList

/-- The tokens that are printed: those of the code, without the comments and the end of the
input. -/
def printable (tokens : List Token) : List Token :=
  tokens.filter fun token => token.kind ≠ .comment && token.kind ≠ .endOfInput

/-- How tokens are printed: with single spaces between them. -/
def printedText (tokens : List Token) : String :=
  String.ofList ([' '].intercalate ((printable tokens).map Token.printed))

/-- Tokens that are neither strings nor patterns nor line ends are printed as they are. -/
theorem Token.printed_eq_value {token : Token}
    (plain : token.kind ∉ [TokenKind.stringLit, .patternLit, .newline]) :
    token.printed = token.value.toList := by
  unfold Token.printed
  split
  · next same => exact absurd (by simp [same]) plain
  · next same => exact absurd (by simp [same]) plain
  · next same => exact absurd (by simp [same]) plain
  · rfl

/-- How a character is printed says the character. -/
theorem unescapes_printedChar (char : Char) : Unescapes '"' (printedChar char) [char] := by
  unfold printedChar
  by_cases feed : char = '\n'
  · rw [if_pos feed, feed]
    exact .escape rfl .nil
  rw [if_neg feed]
  by_cases quote : char = '"'
  · rw [quote]
    exact .escape rfl .nil
  by_cases slash : char = '\\'
  · rw [slash]
    exact .escape rfl .nil
  simp only [quote, slash, decide_false, Bool.or_self, Bool.false_eq_true, if_false]
  exact .plain slash quote feed .nil

/-! ## Printed lexemes -/

variable {keywords : KeywordTable} {file : String} {state mark later : CodeState}
  {chars rest : List Char} {tokens : List Token}

/-- A printed lexeme is spelled as it is printed, fits in where the lexeme does, and says the
same. -/
theorem Spelling.exists_printed (spelling : Spelling) (plain : keywords.isVerbatim = true)
    (other : spelling.kind keywords ≠ .comment) (token : Token)
    (sameKind : token.kind = spelling.kind keywords)
    (sameValue : token.value.toList = spelling.value) :
    ∃ again : Spelling, again.chars = token.printed ∧
      again.kind keywords = spelling.kind keywords ∧ again.value = spelling.value ∧
      ∀ behindValue, again.fits behindValue = spelling.fits behindValue := by
  -- strings of all sorts are printed between double quotes
  have string : ∀ content, spelling.value = content → spelling.kind keywords = .stringLit →
      (∀ behindValue, spelling.fits behindValue = true) →
      ∃ again : Spelling, again.chars = token.printed ∧
        again.kind keywords = spelling.kind keywords ∧ again.value = spelling.value ∧
        ∀ behindValue, again.fits behindValue = spelling.fits behindValue := by
    rintro content same isString fits
    refine ⟨.quoted '"' _ content (.inl rfl) (.flatMap content unescapes_printedChar), ?_,
      isString.symm, same.symm, fun behindValue => (fits behindValue).symm⟩
    rw [Token.printed, sameKind, isString, sameValue, same]
    rfl
  -- what is neither a string nor a pattern is spelled with its value already
  have plainly : spelling.kind keywords ∉ [TokenKind.stringLit, .patternLit, .newline] →
      token.printed = spelling.value := by
    intro outside
    rw [Token.printed_eq_value (by rwa [sameKind]), sameValue]
  cases spelling with
  | quoted quote body content isQuote unescapes => exact string content rfl rfl fun _ => rfl
  | tripled content inside => exact string content rfl rfl fun _ => rfl
  | pattern content =>
    refine ⟨.pattern content, ?_, rfl, rfl, fun _ => rfl⟩
    rw [Token.printed, sameKind, sameValue]
    rfl
  | number numeral =>
    have outside : TokenKind.numberLit ∉ [TokenKind.stringLit, .patternLit, .newline] := by decide
    exact ⟨.number numeral, (plainly outside).symm, rfl, rfl, fun _ => rfl⟩
  | word chars isWord =>
    refine ⟨.word chars isWord, (plainly fun member => ?_).symm, rfl, rfl, fun _ => rfl⟩
    have others : ∀ kind ∈ [TokenKind.stringLit, .patternLit, .newline],
        kind.isVerbatim = false := by decide
    exact KeywordTable.kindOf_ne plain (others _ member) _ rfl
  | mark kind isMark =>
    refine ⟨.mark kind isMark, (plainly fun member => ?_).symm, rfl, rfl, fun _ => rfl⟩
    have others : ∀ kind ∈ [TokenKind.stringLit, .patternLit, .newline], markChars kind = [] := by
      decide
    exact isMark (others _ member)
  | comment => exact absurd rfl other

/-- Printed tokens, each behind a space. -/
def spacedOut (tokens : List Token) : List Char :=
  (tokens.filter fun token => token.kind ≠ .comment).flatMap fun token => ' ' :: token.printed

theorem spacedOut_cons {token : Token} (other : token.kind ≠ .comment) (tokens : List Token) :
    spacedOut (token :: tokens) = ' ' :: (token.printed ++ spacedOut tokens) := by
  rw [spacedOut, List.filter_cons_of_pos (by simp [other])]
  rfl

theorem spacedOut_comment {token : Token} (isComment : token.kind = .comment)
    (tokens : List Token) : spacedOut (token :: tokens) = spacedOut tokens := by
  rw [spacedOut, List.filter_cons_of_neg (by simp [isComment])]
  rfl

/-- Every lexeme but a comment stops before printed tokens. -/
theorem Spelling.stops_spacedOut {spelling : Spelling} (other : spelling.kind keywords ≠ .comment)
    (tokens : List Token) : spelling.stops (spacedOut tokens) = true := by
  have inner : spelling.isComment = false := by
    cases spelling with
    | comment => exact absurd rfl other
    | _ => rfl
  unfold spacedOut
  cases tokens.filter fun token => token.kind ≠ .comment with
  | nil => exact spelling.stops_nil
  | cons token others => exact Spelling.stops_blank (.inl (by decide)) inner _

/-- What is read of a text is read again from what is printed of it. -/
theorem Reads.exists_printed (plain : keywords.isVerbatim = true)
    (reads : Reads keywords file state chars tokens later rest) (file' : String)
    (alike : mark.Alike state) :
    ∃ again last, Reads keywords file' mark (spacedOut tokens) again last [] ∧
      again.map Token.said = uncommented tokens ∧ last.Alike later := by
  -- the states of the two runs stay alike, so they agree on slashes and on line ends
  induction reads generalizing mark with
  | done => exact ⟨[], mark, .done, rfl, alike⟩
  | space _ _ ih => exact ih (alike.trans (CodeState.alike_skip _ _).symm)
  | goOn _ _ ih => exact ih (alike.trans (CodeState.alike_skip _ _).symm)
  | @feed state later chars rest tokens ends _ ih =>
    have aside : (mark.skip [' ']).Alike state := (CodeState.alike_skip _ _).trans alike
    obtain ⟨again, last, reads, said, alike⟩ := ih (aside.behind .newline ['\n'] ['\n'])
    refine ⟨codeToken file' (mark.skip [' ']).position .newline ['\n'] ['\n'] :: again, last, ?_,
      ?_, alike⟩
    · rw [spacedOut_cons TokenKind.noConfusion]
      exact .space (by decide) (.feed (aside.endsLine.trans ends) reads)
    · rw [uncommented_cons TokenKind.noConfusion, List.map_cons, said]
      rfl
  | @lexeme state later spelling chars rest tokens fits stops _ ih =>
    by_cases comment : spelling.kind keywords = .comment
    · rw [comment] at ih ⊢
      rw [spacedOut_comment rfl, uncommented_comment rfl]
      exact ih (alike.trans (CodeState.alike_comment _ _).symm)
    have aside : (mark.skip [' ']).Alike state := (CodeState.alike_skip _ _).trans alike
    obtain ⟨spelled, own, kind, value, fitsAlike⟩ := spelling.exists_printed plain comment
      (codeToken file state.position (spelling.kind keywords) spelling.value spelling.chars) rfl
      String.toList_ofList
    obtain ⟨again, last, reads, said, alike⟩ :=
      ih (aside.behind (spelling.kind keywords) spelled.chars spelling.chars)
    rw [← kind] at reads
    have fits : spelled.fits (mark.skip [' ']).isBehindValue = true := by
      rw [aside.isBehindValue, fitsAlike]
      exact fits
    have stops := Spelling.stops_spacedOut (by rw [kind]; exact comment) tokens
    refine ⟨codeToken file' (mark.skip [' ']).position (spelled.kind keywords) spelled.value
      spelled.chars :: again, last, ?_, ?_, alike⟩
    · rw [spacedOut_cons comment, ← own]
      exact .space (by decide) (.lexeme spelled fits stops reads)
    · rw [uncommented_cons comment, List.map_cons, said, kind, value]
      rfl

/-! ## Printed texts -/

/-- With a space before them, printed tokens are spaced out. -/
theorem cons_intercalate {tokens : List Token} (nonempty : tokens ≠ []) :
    ' ' :: [' '].intercalate (tokens.map Token.printed) =
      tokens.flatMap fun token => ' ' :: token.printed := by
  induction tokens with
  | nil => exact absurd rfl nonempty
  | cons token others ih =>
    cases others with
    | nil => rw [List.map_singleton, List.intercalate_singleton, List.flatMap_singleton]
    | cons next more =>
      rw [List.map_cons, List.map_cons, List.intercalate_cons_cons, List.flatMap_cons,
        ← ih (List.cons_ne_nil _ _), List.map_cons, List.append_assoc]
      rfl

/-- A text is read from a position as it is behind a space that leads there. -/
theorem codeTokensFrom_start (keywords : KeywordTable) (file : String) (start : Position)
    (chars : List Char) :
    codeTokensFrom keywords file (.start start) chars =
      codeTokensFrom keywords file (.start ⟨start.line, start.column - 1⟩) (' ' :: chars) := by
  have onward : (CodeState.start ⟨start.line, start.column - 1⟩).skip [' '] = .start start := by
    show CodeState.start ⟨start.line, start.column - 1 + 1⟩ = .start start
    rw [Int.sub_add_cancel]
  rw [codeTokensFrom.eq_def _ _ _ (' ' :: chars)]
  simp only [onward]
  rfl

/-- The reserved words of the built-in tables are their own characters. -/
theorem KeywordTable.isVerbatim_of_known
    (known : keywords ∈ [KeywordTable.none, .specs, .pseudo]) : keywords.isVerbatim = true := by
  simp only [List.mem_cons, List.not_mem_nil, or_false] at known
  rcases known with rfl | rfl | rfl <;> rfl

/-- Printed tokens are read back, in any file and from any position: the tokens of what is printed
say what the printed tokens do, and the input ends behind them. -/
theorem codeTokens_printedText (known : keywords ∈ [KeywordTable.none, .specs, .pseudo])
    {file : String} {start : Position} {text : String} {tokens : List Token}
    (lexed : codeTokens keywords file start text = .ok tokens) (file' : String)
    (start' : Position) :
    (codeTokens keywords file' start' (printedText tokens)).map (List.map Token.said) =
      .ok ((printable tokens).map Token.said ++ [(.endOfInput, "")]) := by
  have plain := KeywordTable.isVerbatim_of_known known
  obtain ⟨read, later, reads, rfl⟩ := exists_reads lexed
  -- the end of the input is the only token that is left out besides the comments
  have kept : printable (read ++ [codeToken file later.position .endOfInput [] []]) =
      read.filter fun token => token.kind ≠ .comment := by
    have inner := reads.kind_ne_endOfInput (KeywordTable.kindOf_ne plain rfl)
    rw [printable, List.filter_append]
    refine (List.append_nil _).trans (List.filter_congr fun token member => ?_)
    simp [inner token member]
  obtain ⟨again, last, rereads, said, _⟩ : ∃ again last, Reads keywords file'
      (.start ⟨start'.line, start'.column - 1⟩) (spacedOut read) again last [] ∧
      again.map Token.said = uncommented read ∧ last.Alike later :=
    reads.exists_printed plain file' ⟨rfl, rfl⟩
  have whole := rereads.codeTokensFrom_eq
  rw [codeTokensFrom_nil] at whole
  rw [uncommented] at said
  rw [printedText, kept, codeTokens, String.toList_ofList, ← said]
  by_cases empty : (read.filter fun token => token.kind ≠ .comment) = []
  · rw [empty] at said ⊢
    rw [List.map_eq_nil_iff.mp said]
    exact congrArg (Except.map _) (codeTokensFrom_nil keywords file' _)
  · rw [codeTokensFrom_start, cons_intercalate empty, ← spacedOut, whole]
    exact congrArg Except.ok (List.map_append ..)

/-- A string, a comment, a line end and a pattern, and what is printed of them. -/
theorem codeTokens_printedText_lines : ∃ tokens,
    codeTokens .specs "c" ⟨3, 5⟩ "'a' // b\n/c/" = .ok tokens ∧
    printedText tokens = "\"a\" \n /c/" ∧
    (codeTokens .specs "d" .origin (printedText tokens)).map (List.map Token.said) =
      .ok ((printable tokens).map Token.said ++ [(.endOfInput, "")]) := by
  have printed : (codeTokens .specs "c" ⟨3, 5⟩ "'a' // b\n/c/").map printedText =
      .ok "\"a\" \n /c/" := by decide +kernel
  cases lexed : codeTokens .specs "c" ⟨3, 5⟩ "'a' // b\n/c/" with
  | error =>
    rw [lexed] at printed
    cases printed
  | ok tokens =>
    rw [lexed] at printed
    exact ⟨tokens, rfl, Except.ok.inj printed,
      codeTokens_printedText (by decide) lexed "d" .origin⟩

end DocGrammar
