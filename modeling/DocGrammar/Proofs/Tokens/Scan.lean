import DocGrammar.Proofs.Tokens.Quotes
import DocGrammar.Proofs.Tokens.Symbol

/-! # What is spelled is scanned

Before any text that does not run into it, what is spelled as a lexeme is scanned as this lexeme.
There is one lemma for each way to spell one.

* **`Lexeme.scan_eq`** — the first character decides how a lexeme is scanned.
* **`Lexeme.scan_word`**, **`Lexeme.scan_number`** — words and numbers.
* **`Lexeme.scan_quoted`**, **`Lexeme.scan_tripled`** — strings.
* **`Lexeme.scan_pattern`**, **`Lexeme.scan_comment`** — patterns and comments.
* **`Lexeme.scan_mark`** — operators and punctuation marks. -/

namespace DocGrammar

/-! ## Runs of characters -/

/-- A run ends where its class does. -/
theorem takeWhile_append_of_stop {p : Char → Bool} {run tail : List Char}
    (all : run.all p = true) (stop : tail.head?.any p = false) :
    (run ++ tail).takeWhile p = run := by
  rw [List.takeWhile_append_of_pos (List.all_eq_true.mp all)]
  cases tail with
  | nil => simp
  | cons next others =>
    have other : p next = false := stop
    rw [List.takeWhile_cons, other]
    simp

namespace Lexeme

variable {keywords : KeywordTable} {behindValue : Bool}

/-! ## The first character decides -/

/-- Where no comment and no string with double quotes starts, the first character decides. -/
theorem scan_eq {char : Char} {rest : List Char} (slash : char = '/' → rest.head? ≠ some '/')
    (quote : char ≠ '"') :
    scan keywords behindValue char rest =
      if char = '\'' then string char rest
      else if char = '/' && !behindValue then pattern rest
      else if isDigit char then .ok (number (char :: rest))
      else if isWordStart char then .ok (word keywords (char :: rest))
      else operator char rest := by
  unfold scan
  split
  · exact absurd rfl (slash rfl)
  · exact absurd rfl quote
  · simp [quote]

/-! ## Words and numbers -/

theorem scan_word (keywords : KeywordTable) (behindValue : Bool) {chars : List Char}
    (word : isWord chars = true) {tail : List Char} (stop : tail.head?.any isWordChar = false) :
    ∃ first others, chars = first :: others ∧ isWordStart first = true ∧
      scan keywords behindValue first (others ++ tail) =
        .ok ⟨keywords.kindOf (String.ofList chars), chars, others.length⟩ := by
  cases chars with
  | nil => exact Bool.noConfusion word
  | cons first others =>
    rw [isWord, Bool.and_eq_true] at word
    obtain ⟨starts, continues⟩ := word
    refine ⟨first, others, rfl, starts, ?_⟩
    have plain : ∀ other, isWordStart other = false → first ≠ other :=
      fun other => ne_of_isWordStart starts
    have run : (first :: others).all isWordChar = true := by
      rw [List.all_cons, isWordChar_of_isWordStart starts, continues, Bool.and_self]
    -- the first character decides: it starts neither a comment, nor a string, nor a number
    have slash : first ≠ '/' := plain _ (isWordStart_of_ascii (by decide))
    rw [scan_eq (fun same => absurd same slash) (plain _ (isWordStart_of_ascii (by decide))),
      if_neg (plain _ (isWordStart_of_ascii (by decide))), decide_eq_false slash, Bool.false_and,
      if_neg Bool.false_ne_true, isDigit_of_isWordStart starts, if_neg Bool.false_ne_true,
      if_pos starts, Lexeme.word, ← List.cons_append, takeWhile_append_of_stop run stop]
    rfl

/-- The text of a number ends where the number does. A fraction ends without a second one. -/
theorem numberText_chars (numeral : Numeral) {tail : List Char}
    (digit : tail.head?.any isDigit = false)
    (point : numeral.fraction = [] → Symbol.startsFraction tail = false) :
    numberText (numeral.chars ++ tail) = numeral.chars := by
  obtain ⟨whole, fraction, nonempty, wholeDigits, fractionDigits⟩ := numeral
  have dot : isDigit '.' = false := isDigit_of_ascii (by decide)
  unfold numberText Numeral.chars
  cases fraction with
  | nil =>
    simp only [List.isEmpty_nil, if_true]
    rw [takeWhile_append_of_stop wholeDigits digit, List.drop_left]
    split
    · next rest =>
      cases rest with
      | nil => rfl
      | cons next others =>
        have other : isDigit next = false := point rfl
        simp [other]
    · rfl
  | cons first others =>
    -- the dot ends the digits, and digits behind it make the fraction
    have run : (whole ++ '.' :: (first :: others) ++ tail).takeWhile isDigit = whole := by
      rw [List.append_assoc]
      exact takeWhile_append_of_stop wholeDigits dot
    simp only [List.isEmpty_cons, Bool.false_eq_true, if_false]
    rw [run, List.append_assoc, List.drop_left, List.cons_append]
    show (let fraction := ((first :: others) ++ tail).takeWhile isDigit
      if fraction.isEmpty then whole else whole ++ '.' :: fraction) = _
    rw [takeWhile_append_of_stop fractionDigits digit]
    rfl

theorem scan_number (keywords : KeywordTable) (behindValue : Bool) (numeral : Numeral)
    {tail : List Char} (digit : tail.head?.any isDigit = false)
    (point : numeral.fraction = [] → Symbol.startsFraction tail = false) :
    ∃ first others, numeral.chars = first :: others ∧ isDigit first = true ∧
      scan keywords behindValue first (others ++ tail) =
        .ok ⟨.numberLit, numeral.chars, others.length⟩ := by
  obtain ⟨first, more, whole⟩ := List.exists_cons_of_ne_nil numeral.nonempty
  have starts : isDigit first = true := by
    have digits := numeral.wholeDigits
    rw [whole, List.all_cons, Bool.and_eq_true] at digits
    exact digits.1
  obtain ⟨others, chars⟩ : ∃ others, numeral.chars = first :: others := by
    unfold Numeral.chars
    split
    · exact ⟨more, whole⟩
    · exact ⟨more ++ '.' :: numeral.fraction, by rw [whole, List.cons_append]⟩
  have text := numberText_chars numeral digit point
  refine ⟨first, others, chars, starts, ?_⟩
  have plain : ∀ other, isDigit other = false → first ≠ other := fun other => ne_of_isDigit starts
  -- the first character decides: a digit starts nothing but a number
  have slash : first ≠ '/' := plain _ (isDigit_of_ascii (by decide))
  rw [scan_eq (fun same => absurd same slash) (plain _ (isDigit_of_ascii (by decide))),
    if_neg (plain _ (isDigit_of_ascii (by decide))), decide_eq_false slash, Bool.false_and,
    if_neg Bool.false_ne_true, if_pos starts, number, ← List.cons_append, ← chars, text, chars]
  rfl

/-! ## Strings -/

/-- What stands between two marks is scanned as the string that it says. Only an empty string could
be taken for the start of a triple quote. -/
theorem scan_quoted {mark : Char} {body content tail : List Char}
    (quote : mark = '"' ∨ mark = '\'') (unescapes : Unescapes mark body content)
    (stop : mark = '"' → body = [] → tail.head? ≠ some '"') :
    scan keywords behindValue mark (body ++ mark :: tail) =
      .ok ⟨.stringLit, content, body.length + 1⟩ := by
  have plain : mark ≠ '\\' := by rcases quote with rfl | rfl <;> decide
  have single : scan keywords behindValue mark (body ++ mark :: tail) =
      string mark (body ++ mark :: tail) := by
    rcases quote with rfl | rfl
    · unfold scan
      split
      · next head _ => exact absurd head (by decide)
      · next others _ shape =>
        -- three marks in a row: the body is empty, or it starts with the second one
        cases body with
        | nil => exact absurd (congrArg List.head? (List.cons.inj shape).2) (stop rfl rfl)
        | cons first more =>
          exact absurd (congrArg some (List.cons.inj shape).1) (unescapes.head?_ne plain)
      · rfl
    · rw [scan_eq (fun same => absurd same (by decide)) (by decide), if_pos rfl]
  rw [single, string, stringBody_of_unescapes unescapes plain]
  show Except.ok _ = Except.ok _
  rw [Nat.add_assoc, Nat.add_sub_cancel_left]

/-- What stands between triple quotes is scanned as it is. -/
theorem scan_tripled {content : List Char} (inside : IsTripleBody content) (tail : List Char) :
    scan keywords behindValue '"' ('"' :: '"' :: (content ++ '"' :: '"' :: '"' :: tail)) =
      .ok ⟨.stringLit, content, content.length + 5⟩ := by
  show tripleString _ = _
  rw [tripleString, tripleContent?_append inside]

/-! ## Patterns and comments -/

/-- The content of a pattern ends at the closing slash. -/
theorem patternContent?_append (content : List Char) (body : isPatternBody content = true)
    (tail : List Char) : patternContent? (content ++ '/' :: tail) = some content := by
  fun_induction isPatternBody content with
  | case1 => rfl
  | case2 char rest ih =>
    simp only [Bool.and_eq_true, decide_eq_true_eq] at body
    rw [List.cons_append, List.cons_append, patternContent?, if_neg body.1, ih body.2]
    rfl
  | case3 char rest other ih =>
    simp only [Bool.and_eq_true, decide_eq_true_eq] at body
    obtain ⟨⟨⟨backslash, slash⟩, feed⟩, others⟩ := body
    rw [List.cons_append, patternContent?, ih others]
    · rfl
    · exact slash
    · exact feed
    · intro _ _ same
      exact absurd same backslash

theorem scan_pattern (content : PatternText) (tail : List Char) :
    scan keywords false '/' (content.text.toList ++ '/' :: tail) =
      .ok ⟨.patternLit, content.text.toList, content.text.toList.length + 1⟩ := by
  have noComment : (content.text.toList ++ '/' :: tail).head? ≠ some '/' := by
    obtain ⟨first, rest, chars⟩ := List.exists_cons_of_ne_nil content.nonempty
    have body := content.isBody
    rw [chars] at body ⊢
    rintro ⟨⟩
    simp [isPatternBody] at body
  rw [scan_eq (fun _ => noComment) (by decide)]
  show pattern _ = _
  rw [pattern, patternContent?_append _ content.isBody]

/-- Two slashes and what stands behind them on the line are scanned as a comment. -/
theorem scan_comment {line tail : List Char} (isLine : '\n' ∉ line)
    (stop : tail.head?.all (· = '\n') = true) :
    scan keywords behindValue '/' ('/' :: (line ++ tail)) =
      .ok ⟨.comment, trim line, line.length + 1⟩ := by
  have inside : line.all (· ≠ '\n') = true :=
    List.all_eq_true.mpr fun char member =>
      decide_eq_true fun same => isLine (same ▸ member)
  have stops : tail.head?.any (· ≠ '\n') = false := by
    cases tail with
    | nil => rfl
    | cons next others => simpa using stop
  show Except.ok (comment (line ++ tail)) = _
  rw [comment, takeWhile_append_of_stop inside stops]

/-! ## Operators -/

/-- The characters that marks start with. -/
def markHeads : List Char :=
  ['-', '→', '⟺', '|', '=', '!', '<', '>', '&', '+', '*', '/', '%', '.', ':', '(', ')', '[', ']',
    '\x7b', '\x7d', ',', ';']

/-- What a mark starts with starts neither a word nor a number nor a string. -/
theorem plain_of_mem_markHeads {char : Char} (member : char ∈ markHeads) :
    isDigit char = false ∧ isWordStart char = false ∧ char ≠ '"' ∧ char ≠ '\'' ∧
      isCodeSpace char = false ∧ char ≠ '\n' := by
  have every : (markHeads.all fun char => !isAsciiDigit char &&
      !(isAsciiLetter char || char == '_') && char != '"' && char != '\'' && !isCodeSpace char &&
      char != '\n') = true := by decide
  have plain := List.all_eq_true.mp every char member
  simp only [Bool.and_eq_true, Bool.not_eq_true', bne_iff_ne] at plain
  obtain ⟨⟨⟨⟨⟨digit, word⟩, quote⟩, apostrophe⟩, space⟩, feed⟩ := plain
  -- only for the two arrows do the tables have to be searched
  have apart : isDigit char = false ∧ isWordStart char = false := by
    by_cases ascii : char.toNat < 128
    · rw [isDigit_of_ascii ascii, isWordStart_of_ascii ascii]
      exact ⟨digit, word⟩
    · have others : (markHeads.all fun char =>
          decide (char.toNat < 128) || char == '→' || char == '⟺') = true := by decide
      have arrow : char = '→' ∨ char = '⟺' := by
        simpa [ascii] using List.all_eq_true.mp others char member
      rcases arrow with rfl | rfl <;> decide +kernel
  exact ⟨apart.1, apart.2, quote, apostrophe, space, feed⟩

/-- The characters of a mark form an operator of its kind, and their first one starts neither a
word nor a number nor a string. -/
theorem operator_of_markChars {kind : TokenKind} {first : Char} {others : List Char}
    (chars : markChars kind = first :: others) :
    (isDigit first = false ∧ isWordStart first = false ∧ first ≠ '"' ∧ first ≠ '\'' ∧
      isCodeSpace first = false ∧ first ≠ '\n') ∧ (first = '/' → kind = .slash) ∧
    ((others = [] ∧ singleOperator? first = some kind) ∨
      ∃ second, others = [second] ∧ second ≠ '/' ∧ pairOperator? first second = some kind) := by
  cases kind <;> first
    | (simp only [markChars, reduceCtorEq] at chars; done)
    | (obtain ⟨rfl, rfl⟩ := List.cons.inj chars
       refine ⟨plain_of_mem_markHeads (by decide), by decide, ?_⟩
       first
         | exact .inl ⟨rfl, rfl⟩
         | exact .inr ⟨_, rfl, by decide, rfl⟩)

theorem scan_mark {kind : TokenKind} {first : Char} {others tail : List Char}
    (chars : markChars kind = first :: others)
    (stop : Symbol.markStops (first :: others) tail = true)
    (slash : kind = .slash → behindValue = true) :
    scan keywords behindValue first (others ++ tail) =
      .ok ⟨kind, first :: others, others.length⟩ := by
  obtain ⟨⟨digit, word, quote, apostrophe, _⟩, divides, form⟩ := operator_of_markChars chars
  -- two slashes never stand together
  have noComment : first = '/' → (others ++ tail).head? ≠ some '/' := by
    rintro rfl
    rcases form with ⟨rfl, _⟩ | ⟨second, rfl, plain, _⟩
    · cases tail with
      | nil => simp
      | cons next more =>
        rintro ⟨⟩
        simp [Symbol.markStops] at stop
    · rintro ⟨⟩
      exact plain rfl
  have value : (decide (first = '/') && !behindValue) = false := by
    by_cases same : first = '/'
    · simp [slash (divides same)]
    · simp [same]
  rw [scan_eq noComment quote, if_neg apostrophe, value, digit, word, if_neg Bool.false_ne_true,
    if_neg Bool.false_ne_true, if_neg Bool.false_ne_true, operator]
  rcases form with ⟨rfl, known⟩ | ⟨second, rfl, _, known⟩
  · have alone : tail.head?.bind (pairOperator? first) = none := by
      cases tail with
      | nil => rfl
      | cons next more =>
        rw [Symbol.markStops, Bool.and_eq_true, Option.isNone_iff_eq_none] at stop
        exact stop.1
    simp only [List.nil_append]
    rw [alone, known]
    rfl
  · simp [known]

end Lexeme

end DocGrammar
