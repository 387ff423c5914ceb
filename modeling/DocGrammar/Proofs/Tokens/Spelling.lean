import DocGrammar.Proofs.Tokens.Scan
import Mathlib.Data.List.TakeWhile

/-! # How lexemes are spelled

A lexeme of code is a word, a number, an operator, a pattern, a string of either sort or a comment.
What is spelled as a lexeme is scanned as this lexeme wherever it fits in, before any text that does
not run into it, and there is no other way to scan a lexeme.

* **`Spelling`** — a way to spell a lexeme.
* **`Spelling.scan_chars`** — what is spelled is scanned.
* **`Lexeme.isSpelled_of_scan`** — what is scanned is spelled.
* **`Symbol.scan_chars`** — the lexeme of a spelled symbol. -/

namespace DocGrammar

/-! ## Spellings -/

/-- A way to spell a lexeme. -/
inductive Spelling where
  /-- A word. -/
  | word (chars : List Char) (isWord : isWord chars = true)
  /-- A number. -/
  | number (numeral : Numeral)
  /-- An operator or punctuation mark. -/
  | mark (kind : TokenKind) (isMark : markChars kind ≠ [])
  /-- A pattern between slashes. -/
  | pattern (content : PatternText)
  /-- A string between two marks, with escapes. -/
  | quoted (quote : Char) (body content : List Char) (isQuote : quote = '"' ∨ quote = '\'')
      (unescapes : Unescapes quote body content)
  /-- A string between triple quotes. -/
  | tripled (content : List Char) (inside : IsTripleBody content)
  /-- A comment: what stands behind two slashes on a line. -/
  | comment (line : List Char) (isLine : '\n' ∉ line)

/-- Every mark ends before the end of the text. -/
theorem Symbol.markStops_nil (chars : List Char) : markStops chars [] = true := by
  unfold markStops
  split
  · next shape => cases shape
  · rfl

/-- Whether a mark ends before a text depends only on the first character of the text. -/
theorem Symbol.markStops_cons (chars : List Char) (char : Char) (tail more : List Char) :
    markStops chars (char :: tail) = markStops chars (char :: more) := by
  rcases chars with _ | ⟨first, _ | ⟨second, others⟩⟩ <;> rfl

namespace Spelling

/-- The kind of the lexeme. A table of reserved words tells words apart. -/
def kind (keywords : KeywordTable) : Spelling → TokenKind
  | word chars _ => keywords.kindOf (String.ofList chars)
  | number _ => .numberLit
  | mark kind _ => kind
  | pattern _ => .patternLit
  | quoted _ _ _ _ _ | tripled _ _ => .stringLit
  | comment _ _ => .comment

/-- The value of the lexeme. -/
def value : Spelling → List Char
  | word chars _ => chars
  | number numeral => numeral.chars
  | mark kind _ => markChars kind
  | pattern content => content.text.toList
  | quoted _ _ content _ _ | tripled content _ => content
  | comment line _ => trim line

/-- The characters of the lexeme. -/
def chars : Spelling → List Char
  | word chars _ => chars
  | number numeral => numeral.chars
  | mark kind _ => markChars kind
  | pattern content => '/' :: (content.text.toList ++ ['/'])
  | quoted quote body _ _ _ => quote :: (body ++ [quote])
  | tripled content _ => '"' :: '"' :: '"' :: (content ++ ['"', '"', '"'])
  | comment line _ => '/' :: '/' :: line

theorem chars_ne_nil (spelling : Spelling) : spelling.chars ≠ [] := by
  cases spelling with
  | word chars isWord =>
    rintro rfl
    cases isWord
  | number numeral => exact numeral.chars_ne_nil
  | mark kind isMark => exact isMark
  | _ => exact List.cons_ne_nil _ _

/-- Whether a lexeme can be spelled so behind a value or elsewhere: a slash divides values, and a
pattern stands where no value does. -/
def fits (behindValue : Bool) : Spelling → Bool
  | mark kind _ => kind ≠ .slash || behindValue
  | pattern _ => !behindValue
  | _ => true

/-- Whether the lexeme ends where its characters do when the given text follows: nothing that
stands there goes on with the word, the number, the operator or the comment, or makes a triple
quote of an empty string. -/
def stops (tail : List Char) : Spelling → Bool
  | word _ _ => !tail.head?.any isWordChar
  | number numeral =>
    !tail.head?.any isDigit && (!numeral.fraction.isEmpty || !Symbol.startsFraction tail)
  | mark kind _ => Symbol.markStops (markChars kind) tail
  | quoted quote body _ _ _ => quote ≠ '"' || !body.isEmpty || tail.head? ≠ some '"'
  | pattern _ | tripled _ _ => true
  | comment _ _ => tail.head?.all (· = '\n')

/-- No lexeme goes on behind the end of the text. -/
theorem stops_nil (spelling : Spelling) : spelling.stops [] = true := by
  cases spelling with
  | mark kind isMark => exact Symbol.markStops_nil _
  | number => simp [stops, Symbol.startsFraction]
  | quoted => simp [stops]
  | _ => rfl

/-- Whether a lexeme is a comment. -/
def isComment : Spelling → Bool
  | comment _ _ => true
  | _ => false

/-- White space of code neither continues words or numbers nor starts a fraction or a string. -/
theorem outside_of_blank {char : Char} (blank : char ∈ [' ', '\t', '\r', '\n']) :
    isWordChar char = false ∧ isDigit char = false ∧ char ≠ '.' ∧ char ≠ '"' := by
  have every : ([' ', '\t', '\r', '\n'].all fun char => decide (char.toNat < 128) &&
      !(isAsciiLetter char || isAsciiDigit char || char == '_') && !isAsciiDigit char &&
      char != '.' && char != '"') = true := by decide
  have own := List.all_eq_true.mp every char blank
  simp only [Bool.and_eq_true, Bool.not_eq_true', bne_iff_ne, decide_eq_true_eq] at own
  obtain ⟨⟨⟨⟨ascii, word⟩, digit⟩, point⟩, quote⟩ := own
  exact ⟨(isWordChar_of_ascii ascii).trans word, (isDigit_of_ascii ascii).trans digit, point, quote⟩

/-- Only comments go on with white space. -/
theorem stops_blank {char : Char} (blank : isCodeSpace char = true ∨ char = '\n')
    {spelling : Spelling} (inner : spelling.isComment = false) (tail : List Char) :
    spelling.stops (char :: tail) = true := by
  -- the four characters are looked at one by one, since a mark may go on with some
  have one : char ∈ [' ', '\t', '\r', '\n'] := by
    simpa [isCodeSpace, or_assoc] using blank
  obtain ⟨word, digit, point, quote⟩ := outside_of_blank one
  cases spelling with
  | word chars isWord => simp [stops, word]
  | number => simp [stops, digit, Symbol.startsFraction, point]
  | mark kind isMark =>
    show Symbol.markStops (markChars kind) (char :: tail) = true
    unfold Symbol.markStops
    split
    · next first next _ _ shape =>
      obtain ⟨rfl, rfl⟩ := List.cons.inj shape
      simp only [List.mem_cons, List.not_mem_nil, or_false] at one
      rcases one with rfl | rfl | rfl | rfl <;> simp [pairOperator?]
    · rfl
  | quoted => simp [stops, quote]
  | comment => cases inner
  | _ => rfl

/-- If no word is of the kind of comments, only comments are. -/
theorem eq_comment_of_kind {keywords : KeywordTable} {spelling : Spelling}
    (noWord : ∀ word, keywords.kindOf word ≠ .comment)
    (isComment : spelling.kind keywords = .comment) :
    ∃ line isLine, spelling = .comment line isLine := by
  cases spelling with
  | word chars => exact absurd isComment (noWord _)
  | mark kind isMark =>
    obtain rfl : kind = .comment := isComment
    exact absurd rfl isMark
  | comment line isLine => exact ⟨line, isLine, rfl⟩
  | _ => cases isComment

/-! ### Scanning what is spelled -/

/-- A character of words is neither a space nor a line feed. -/
theorem plain_of_isWordChar {char : Char} (continues : isWordChar char = true) :
    isCodeSpace char = false ∧ char ≠ '\n' := by
  have other : ∀ space ∈ [' ', '\t', '\r', '\n'], char ≠ space := by
    rintro space member rfl
    exact Bool.false_ne_true ((outside_of_blank member).1.symm.trans continues)
  simp only [List.mem_cons, List.not_mem_nil, or_false, forall_eq_or_imp, forall_eq] at other
  simp [isCodeSpace, other]

/-- The characters of a lexeme are scanned as the lexeme, before any text that it stops before. -/
theorem scan_chars (spelling : Spelling) (keywords : KeywordTable) {behindValue : Bool}
    (fits : spelling.fits behindValue = true) {tail : List Char}
    (stops : spelling.stops tail = true) :
    ∃ first others, spelling.chars = first :: others ∧ isCodeSpace first = false ∧ first ≠ '\n' ∧
      Lexeme.scan keywords behindValue first (others ++ tail) =
        .ok ⟨spelling.kind keywords, spelling.value, others.length⟩ := by
  -- what runs on, words and numbers, is scanned up to where `stops` says that it ends; what has a
  -- closing mark is scanned up to that mark
  cases spelling with
  | word chars isWord =>
    simp only [Spelling.stops, Bool.not_eq_true'] at stops
    obtain ⟨first, others, rfl, starts, scanned⟩ :=
      Lexeme.scan_word keywords behindValue isWord stops
    obtain ⟨space, feed⟩ := plain_of_isWordChar (isWordChar_of_isWordStart starts)
    exact ⟨first, others, rfl, space, feed, scanned⟩
  | number numeral =>
    simp only [Spelling.stops, Bool.and_eq_true, Bool.or_eq_true, Bool.not_eq_true',
      List.isEmpty_eq_false_iff] at stops
    obtain ⟨first, others, chars, starts, scanned⟩ :=
      Lexeme.scan_number keywords behindValue numeral stops.1 fun empty =>
        stops.2.resolve_left (not_not_intro empty)
    obtain ⟨space, feed⟩ := plain_of_isWordChar (isWordChar_of_isDigit starts)
    exact ⟨first, others, chars, space, feed, scanned⟩
  | mark kind isMark =>
    obtain ⟨first, others, chars⟩ := List.exists_cons_of_ne_nil isMark
    obtain ⟨⟨_, _, _, _, space, feed⟩, _⟩ := Lexeme.operator_of_markChars chars
    have divides : kind = .slash → behindValue = true := by
      rintro rfl
      simpa [Spelling.fits] using fits
    refine ⟨first, others, chars, space, feed, ?_⟩
    rw [Lexeme.scan_mark chars (chars ▸ stops) divides]
    exact congrArg (fun value => Except.ok (⟨kind, value, others.length⟩ : Lexeme)) chars.symm
  | pattern content =>
    have free : behindValue = false := by simpa [Spelling.fits] using fits
    refine ⟨'/', content.text.toList ++ ['/'], rfl, by decide, by decide, ?_⟩
    rw [free, List.append_assoc, List.singleton_append, Lexeme.scan_pattern,
      List.length_append]
    rfl
  | quoted quote body content isQuote unescapes =>
    obtain ⟨space, feed⟩ : isCodeSpace quote = false ∧ quote ≠ '\n' := by
      rcases isQuote with rfl | rfl <;> decide
    refine ⟨quote, body ++ [quote], rfl, space, feed, ?_⟩
    have single : quote = '"' → body = [] → tail.head? ≠ some '"' := by
      rintro rfl rfl
      simpa [Spelling.stops] using stops
    rw [List.append_assoc, List.singleton_append, Lexeme.scan_quoted isQuote unescapes single,
      List.length_append]
    rfl
  | tripled content inside =>
    refine ⟨_, _, rfl, by decide, by decide, ?_⟩
    have scanned : Lexeme.scan keywords behindValue '"' _ = _ := Lexeme.scan_tripled inside tail
    simpa [Spelling.kind, Spelling.value] using scanned
  | comment line isLine =>
    exact ⟨'/', '/' :: line, rfl, by decide, by decide, Lexeme.scan_comment isLine stops⟩

end Spelling

/-! ## Scanned lexemes -/

/-- A single character that forms a mark is its spelling. -/
theorem markChars_of_singleOperator? {char : Char} {kind : TokenKind}
    (forms : singleOperator? char = some kind) : markChars kind = [char] := by
  unfold singleOperator? at forms
  split at forms <;> cases forms <;> rfl

/-- Two characters that form a mark are its spelling. -/
theorem markChars_of_pairOperator? {first second : Char} {kind : TokenKind}
    (forms : pairOperator? first second = some kind) : markChars kind = [first, second] := by
  unfold pairOperator? at forms
  split at forms <;> cases forms <;> rfl

namespace Lexeme

variable {keywords : KeywordTable} {behindValue : Bool} {char : Char} {rest : List Char}
  {lexeme : Lexeme}

/-- A lexeme at the head of a text is spelled there: the text starts with its characters, it fits
in, and it stops before what is left. -/
def IsSpelled (lexeme : Lexeme) (keywords : KeywordTable) (behindValue : Bool) (char : Char)
    (rest : List Char) : Prop :=
  ∃ (spelling : Spelling) (others tail : List Char), spelling.chars = char :: others ∧
    rest = others ++ tail ∧
    lexeme = ⟨spelling.kind keywords, spelling.value, others.length⟩ ∧
    spelling.fits behindValue = true ∧ spelling.stops tail = true

/-- A run of characters of a class stops where the class does. -/
theorem any_dropWhile (p : Char → Bool) (chars : List Char) :
    (chars.dropWhile p).head?.any p = false := by
  have stop := List.head?_dropWhile_not p chars
  cases behind : (chars.dropWhile p).head? with
  | none => rfl
  | some next =>
    rw [behind] at stop
    simpa using stop

/-- What is left of a text behind its first line starts with a line feed, if anything is left. -/
theorem head?_dropWhile_feed (chars : List Char) :
    (chars.dropWhile (· ≠ '\n')).head?.all (· = '\n') = true := by
  have stop := any_dropWhile (· ≠ '\n') chars
  cases behind : (chars.dropWhile (· ≠ '\n')).head? with
  | none => rfl
  | some next =>
    rw [behind] at stop
    simpa using stop

theorem isSpelled_comment (rest : List Char) :
    (comment rest).IsSpelled keywords behindValue '/' ('/' :: rest) := by
  have isLine : '\n' ∉ rest.takeWhile (· ≠ '\n') := fun member =>
    absurd (List.mem_takeWhile_imp member) (by decide)
  refine ⟨.comment _ isLine, _, rest.dropWhile (· ≠ '\n'), rfl, ?_, rfl, rfl,
    head?_dropWhile_feed rest⟩
  rw [List.cons_append, List.takeWhile_append_dropWhile]

theorem isSpelled_string {quote : Char} (isQuote : quote = '"' ∨ quote = '\'')
    (single : ∀ others, quote = '"' → rest ≠ '"' :: '"' :: others)
    (reads : string quote rest = .ok lexeme) :
    lexeme.IsSpelled keywords behindValue quote rest := by
  obtain ⟨⟨content, width⟩, found, whole⟩ := exists_of_bind_ok reads
  cases whole
  obtain ⟨body, tail, rfl, rfl, unescapes⟩ := exists_of_stringBody found
  refine ⟨.quoted quote body content isQuote unescapes, body ++ [quote], tail, rfl, by simp, ?_,
    rfl, ?_⟩
  · have length : 1 + body.length + 1 - 1 = (body ++ [quote]).length := by
      rw [List.length_append, List.length_singleton]
      omega
    rw [← length]
    rfl
  · -- behind an empty string, a third quote would have opened a triple quote
    by_cases third : tail.head? = some '"'
    · obtain ⟨others, rfl⟩ := List.head?_eq_some_iff.mp third
      have filled : quote = '"' → body ≠ [] := by
        rintro rfl rfl
        exact single others rfl rfl
      simpa [Spelling.stops, or_iff_not_imp_left] using filled
    · simp [Spelling.stops, third]

theorem isSpelled_tripleString (reads : tripleString rest = .ok lexeme) :
    lexeme.IsSpelled keywords behindValue '"' ('"' :: '"' :: rest) := by
  unfold tripleString at reads
  split at reads
  · cases reads
  · next content found =>
    cases reads
    obtain ⟨tail, rfl, inside⟩ := exists_of_tripleContent? found
    refine ⟨.tripled content inside, _, tail, rfl, by simp, ?_, rfl, rfl⟩
    -- two of the opening quotes stand before the content, and all of the closing ones behind it
    simp [Spelling.kind, Spelling.value]

/-- The content of a pattern ends before a slash. -/
theorem exists_of_patternContent? {content : List Char}
    (reads : patternContent? rest = some content) :
    ∃ tail, rest = content ++ '/' :: tail := by
  fun_induction patternContent? rest generalizing content with
  | case1 => cases reads
  | case2 tail =>
    cases reads
    exact ⟨tail, rfl⟩
  | case3 => cases reads
  | case4 => cases reads
  | case5 char rest differs ih =>
    obtain ⟨content, inner, rfl⟩ := Option.map_eq_some_iff.mp reads
    obtain ⟨tail, rfl⟩ := ih inner
    exact ⟨tail, rfl⟩
  | case6 char rest slash feed other ih =>
    obtain ⟨content, inner, rfl⟩ := Option.map_eq_some_iff.mp reads
    obtain ⟨tail, rfl⟩ := ih inner
    exact ⟨tail, rfl⟩

theorem isSpelled_pattern (noComment : ∀ others, rest ≠ '/' :: others)
    (reads : pattern rest = .ok lexeme) : lexeme.IsSpelled keywords false '/' rest := by
  unfold pattern at reads
  split at reads
  · cases reads
  · next content found =>
    cases reads
    obtain ⟨tail, rfl⟩ := exists_of_patternContent? found
    have isBody := isPatternBody_of_patternContent? _ _ found
    have nonempty : content ≠ [] := by
      rintro rfl
      exact noComment tail rfl
    refine ⟨.pattern ⟨String.ofList content, ?_, ?_⟩, content ++ ['/'], tail, ?_, by simp, ?_, rfl,
      rfl⟩
    · rwa [String.toList_ofList]
    · rwa [String.toList_ofList]
    · rw [Spelling.chars, String.toList_ofList]
    · simp [Spelling.kind, Spelling.value]

/-- What starts with a digit starts with a number, which stops before what is left. -/
theorem exists_numeral (digit : isDigit char = true) (rest : List Char) :
    ∃ (numeral : Numeral) (tail : List Char), char :: rest = numeral.chars ++ tail ∧
      (Spelling.number numeral).stops tail = true := by
  have digits : ∀ text : List Char, (text.takeWhile isDigit).all isDigit = true := fun text =>
    List.all_eq_true.mpr fun _ => List.mem_takeWhile_imp
  have nonempty : (char :: rest).takeWhile isDigit ≠ [] := by
    rw [List.takeWhile_cons_of_pos digit]
    exact List.cons_ne_nil _ _
  have cut := (List.takeWhile_append_dropWhile (p := isDigit) (l := char :: rest)).symm
  have stop := any_dropWhile isDigit (char :: rest)
  cases point : Symbol.startsFraction ((char :: rest).dropWhile isDigit) with
  | false =>
    refine ⟨⟨_, [], nonempty, digits _, rfl⟩, _, cut, ?_⟩
    simp only [Spelling.stops, stop, point]
    rfl
  | true =>
    -- a point and a digit follow, so there is a fraction
    obtain ⟨next, more, left, starts⟩ : ∃ next more,
        (char :: rest).dropWhile isDigit = '.' :: next :: more ∧ isDigit next = true := by
      unfold Symbol.startsFraction at point
      split at point
      · next shape => exact ⟨_, _, shape, point⟩
      · cases point
    have filled : (next :: more).takeWhile isDigit ≠ [] := by
      rw [List.takeWhile_cons_of_pos starts]
      exact List.cons_ne_nil _ _
    refine ⟨⟨_, (next :: more).takeWhile isDigit, nonempty, digits _, digits _⟩,
      (next :: more).dropWhile isDigit, ?_, ?_⟩
    · rw [Numeral.chars, if_neg (by simpa using filled), List.append_assoc, List.cons_append,
        List.takeWhile_append_dropWhile, ← left]
      exact cut
    · simp only [Spelling.stops, any_dropWhile, List.isEmpty_eq_false_iff.mpr filled]
      rfl

theorem isSpelled_number (digit : isDigit char = true) :
    (number (char :: rest)).IsSpelled keywords behindValue char rest := by
  obtain ⟨numeral, tail, text, stops⟩ := exists_numeral digit rest
  have ends := stops
  simp only [Spelling.stops, Bool.and_eq_true, Bool.or_eq_true, Bool.not_eq_true',
    List.isEmpty_eq_false_iff] at ends
  have found : numberText (char :: rest) = numeral.chars := by
    rw [text]
    exact numberText_chars numeral ends.1 fun empty => ends.2.resolve_left (not_not_intro empty)
  obtain ⟨first, others, chars⟩ := List.exists_cons_of_ne_nil numeral.chars_ne_nil
  rw [chars] at text
  obtain ⟨rfl, rfl⟩ := List.cons.inj text
  refine ⟨.number numeral, others, tail, chars, rfl, ?_, rfl, stops⟩
  simp only [number, found, Spelling.kind, Spelling.value, chars]
  rfl

/-- What starts like a word starts with a word. -/
theorem isSpelled_word (starts : isWordStart char = true) :
    (word keywords (char :: rest)).IsSpelled keywords behindValue char rest := by
  have run : (char :: rest).takeWhile isWordChar = char :: rest.takeWhile isWordChar :=
    List.takeWhile_cons_of_pos (isWordChar_of_isWordStart starts)
  have isWord : isWord (char :: rest.takeWhile isWordChar) = true := by
    rw [DocGrammar.isWord, starts, Bool.true_and, List.all_eq_true]
    exact fun _ => List.mem_takeWhile_imp
  refine ⟨.word _ isWord, _, rest.dropWhile isWordChar, rfl,
    List.takeWhile_append_dropWhile.symm, ?_, rfl, ?_⟩
  · rw [word, run]
    rfl
  · rw [Spelling.stops, any_dropWhile]
    rfl

theorem isSpelled_operator (noComment : ∀ others, char = '/' → rest ≠ '/' :: others)
    (noPattern : char = '/' → behindValue = true) (reads : operator char rest = .ok lexeme) :
    lexeme.IsSpelled keywords behindValue char rest := by
  unfold operator at reads
  split at reads
  · next kind pair =>
    cases reads
    obtain ⟨second, head, forms⟩ := Option.bind_eq_some_iff.mp pair
    obtain ⟨tail, rfl⟩ := List.head?_eq_some_iff.mp head
    have chars := markChars_of_pairOperator? forms
    -- a slash is spelled by one character
    have other : kind ≠ .slash := by
      rintro rfl
      cases chars
    refine ⟨.mark kind (by rw [chars]; exact List.cons_ne_nil _ _), [second], tail, chars, rfl, ?_,
      ?_, ?_⟩
    · exact congrArg (Lexeme.mk kind · 1) chars.symm
    · simp [Spelling.fits, other]
    · rw [Spelling.stops, chars]
      rfl
  · next alone =>
    split at reads
    · next kind single =>
      cases reads
      have chars := markChars_of_singleOperator? single
      refine ⟨.mark kind (by rw [chars]; exact List.cons_ne_nil _ _), [], rest, chars, rfl, ?_,
        ?_, ?_⟩
      · exact congrArg (Lexeme.mk kind · 0) chars.symm
      · -- a slash fits only behind a value, where no pattern can start
        rw [Spelling.fits, Bool.or_eq_true, decide_eq_true_eq, or_iff_not_imp_left, not_not]
        rintro rfl
        exact noPattern (List.cons.inj chars).1.symm
      · rw [Spelling.stops, chars]
        cases rest with
        | nil => rfl
        | cons next others =>
          have noPair : pairOperator? char next = none := alone
          have single : char = '/' → next ≠ '/' := by
            rintro rfl rfl
            exact noComment others rfl rfl
          simpa [Symbol.markStops, noPair, or_iff_not_imp_left] using single
    · cases reads

/-- Every lexeme that is scanned is spelled. -/
theorem isSpelled_of_scan (scanned : scan keywords behindValue char rest = .ok lexeme) :
    lexeme.IsSpelled keywords behindValue char rest := by
  -- the first characters decide, in the order in which the scanner looks at them
  unfold scan at scanned
  split at scanned
  · cases scanned
    exact isSpelled_comment _
  · exact isSpelled_tripleString scanned
  · next noComment noTriple =>
    split at scanned
    · next quote => exact isSpelled_string (by simpa using quote) noTriple scanned
    split at scanned
    · next slash =>
      simp only [Bool.and_eq_true, decide_eq_true_eq, Bool.not_eq_true'] at slash
      rw [slash.1, slash.2]
      exact isSpelled_pattern (fun others => noComment others slash.1) scanned
    next slash =>
    split at scanned
    · next digit =>
      cases scanned
      exact isSpelled_number digit
    split at scanned
    · next starts =>
      cases scanned
      exact isSpelled_word starts
    · exact isSpelled_operator noComment (fun same => by simpa [same] using slash) scanned

/-- A lexeme is scanned where it is spelled, and nowhere else. -/
theorem scan_eq_ok_iff : scan keywords behindValue char rest = .ok lexeme ↔
    lexeme.IsSpelled keywords behindValue char rest := by
  constructor
  · exact isSpelled_of_scan
  · rintro ⟨spelling, others, tail, chars, rfl, rfl, fits, stops⟩
    obtain ⟨_, _, same, _, _, scanned⟩ := spelling.scan_chars keywords fits stops
    obtain ⟨rfl, rfl⟩ := List.cons.inj (chars.symm.trans same)
    exact scanned

end Lexeme

/-! ## Symbols -/

/-- How a character is spelled says the character. -/
theorem unescapes_spelledChar (char : Char) : Unescapes '"' (spelledChar char) [char] := by
  unfold spelledChar
  by_cases feed : char = '\n'
  · rw [if_pos feed, feed]
    exact .escape rfl .nil
  by_cases back : char = '\r'
  · rw [if_neg feed, if_pos back, back]
    exact .escape rfl .nil
  by_cases tab : char = '\t'
  · rw [if_neg feed, if_neg back, if_pos tab, tab]
    exact .escape rfl .nil
  by_cases null : char = Char.ofNat 0
  · rw [if_neg feed, if_neg back, if_neg tab, if_pos null, null]
    exact .escape rfl .nil
  rw [if_neg feed, if_neg back, if_neg tab, if_neg null]
  by_cases quote : char = '"'
  · rw [quote]
    exact .escape rfl .nil
  by_cases slash : char = '\\'
  · rw [slash]
    exact .escape rfl .nil
  -- any other character says itself
  simp only [quote, slash, decide_false, Bool.or_self, Bool.false_eq_true, if_false]
  exact .plain slash quote feed .nil

namespace Symbol

variable {keywords : KeywordTable}

/-- The characters of a symbol other than a line end spell a lexeme. -/
theorem exists_spelling (symbol : Symbol keywords) (inner : symbol.isFeed = false) :
    ∃ spelling : Spelling, spelling.chars = symbol.chars ∧
      spelling.kind keywords = symbol.kind ∧ spelling.value = symbol.value.toList ∧
      (∀ behindValue, symbol.fits behindValue → spelling.fits behindValue = true) ∧
      ∀ tail, symbol.stops tail = true → spelling.stops tail = true := by
  cases symbol with
  | word kind text isWord assigned =>
    refine ⟨.word text.toList isWord, rfl, ?_, rfl, fun _ _ => rfl, fun _ stops => stops⟩
    rw [Spelling.kind, String.ofList_toList, assigned]
    rfl
  | number numeral =>
    refine ⟨.number numeral, rfl, rfl, String.toList_ofList.symm, fun _ _ => rfl,
      fun tail stops => ?_⟩
    rw [Symbol.stops, Bool.and_eq_true] at stops
    rw [Spelling.stops, stops.1, stops.2, Bool.or_true, Bool.and_self]
  | string content =>
    have unescapes : Unescapes '"' (content.toList.flatMap spelledChar) content.toList :=
      .flatMap _ unescapes_spelledChar
    refine ⟨.quoted '"' _ _ (.inl rfl) unescapes, rfl, rfl, rfl, fun _ _ => rfl,
      fun tail stops => ?_⟩
    -- nothing says only nothing
    by_cases third : tail.head? = some '"'
    · have filled : content.toList ≠ [] := by
        simpa [Symbol.stops, third] using stops
      have spelled : content.toList.flatMap spelledChar ≠ [] := by
        intro empty
        rw [empty] at unescapes
        generalize content.toList = chars at unescapes filled
        cases unescapes
        exact filled rfl
      rw [Spelling.stops, List.isEmpty_eq_false_iff.mpr spelled]
      rfl
    · simp [Spelling.stops, third]
  | pattern content =>
    refine ⟨.pattern content, rfl, rfl, rfl, fun behindValue fits => ?_, fun _ _ => rfl⟩
    rw [Spelling.fits, fits.2 rfl]
    rfl
  | mark kind isMark =>
    refine ⟨.mark kind isMark, rfl, rfl, String.toList_ofList.symm, fun behindValue fits => ?_,
      fun _ stops => stops⟩
    by_cases slash : kind = .slash
    · rw [Spelling.fits, fits.1 slash, Bool.or_true]
    · simp [Spelling.fits, slash]
  | newline => exact Bool.noConfusion inner

/-- The characters of a symbol other than a line end are read as one lexeme, before any text that
does not run into them. -/
theorem scan_chars (symbol : Symbol keywords) (inner : symbol.isFeed = false)
    {behindValue : Bool} (fits : symbol.fits behindValue) {tail : List Char}
    (stops : symbol.stops tail = true) :
    ∃ first others, symbol.chars = first :: others ∧ isCodeSpace first = false ∧ first ≠ '\n' ∧
      Lexeme.scan keywords behindValue first (others ++ tail) =
        .ok ⟨symbol.kind, symbol.value.toList, others.length⟩ := by
  obtain ⟨spelling, chars, kind, value, fitsIn, stopsHere⟩ := symbol.exists_spelling inner
  rw [← chars, ← kind, ← value]
  exact spelling.scan_chars keywords (fitsIn _ fits) (stopsHere _ stops)

end Symbol

end DocGrammar
