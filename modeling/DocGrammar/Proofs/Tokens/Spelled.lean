import DocGrammar.Proofs.Tokens.Spelling

/-! # What a lexeme is spelled with

A lexeme of code takes some characters of the text. Most lexemes are their own characters; patterns
and strings have marks around them, and a string is read back from the characters that it takes.

* **`Spelled`** — the characters that a lexeme of some kind and value may take.
* **`Lexeme.spells_of_scan`** — every lexeme takes characters that it may take.
* **`codeTokens_of_spelled`** — the characters of a string are read back as this string. -/

namespace DocGrammar

/-! ## The characters of lexemes -/

/-- Whether lexemes of a kind always are the characters that they take. -/
def TokenKind.isVerbatim : TokenKind → Bool
  | .newline | .endOfInput | .comment | .numberLit | .stringLit | .patternLit | .minus => false
  | _ => true

/-- Whether the reserved words of a table have kinds whose lexemes are their own characters. -/
def KeywordTable.isVerbatim (keywords : KeywordTable) : Bool :=
  keywords.all fun entry => entry.2.isVerbatim

/-- Words are their own characters. -/
theorem KeywordTable.isVerbatim_kindOf {keywords : KeywordTable}
    (plain : keywords.isVerbatim = true) (word : String) :
    (keywords.kindOf word).isVerbatim = true := by
  unfold kindOf
  cases found : keywords.lookup word with
  | none => rfl
  | some kind =>
    obtain ⟨before, behind, split, _⟩ := List.lookup_eq_some_iff.mp found
    refine List.all_eq_true.mp plain (word, kind) ?_
    rw [split]
    exact List.mem_append_right before List.mem_cons_self

/-- No word is of a kind whose lexemes are not their own characters. -/
theorem KeywordTable.kindOf_ne {keywords : KeywordTable} (plain : keywords.isVerbatim = true)
    {kind : TokenKind} (other : kind.isVerbatim = false) (word : String) :
    keywords.kindOf word ≠ kind := by
  rintro rfl
  rw [KeywordTable.isVerbatim_kindOf plain word] at other
  cases other

/-- Some characters spell a lexeme of a kind and a value. -/
inductive Spelled : TokenKind → List Char → List Char → Prop
  /-- Most lexemes are their own characters. -/
  | verbatim {kind : TokenKind} {chars : List Char} (plain : kind.isVerbatim = true)
      (nonempty : chars ≠ []) (noFeed : '\n' ∉ chars) : Spelled kind chars chars
  /-- A minus sign is one character. -/
  | minus : Spelled .minus ['-'] ['-']
  /-- A number holds no white space. -/
  | number {chars : List Char} (nonempty : chars ≠ [])
      (tight : ∀ char ∈ chars, isBlank char = false) : Spelled .numberLit chars chars
  /-- A pattern stands between slashes. -/
  | pattern {content : List Char} (noFeed : '\n' ∉ content) :
      Spelled .patternLit content ('/' :: (content ++ ['/']))
  /-- A string is read back from its characters. -/
  | string {mark : Char} {content front : List Char} (quote : mark = '"' ∨ mark = '\'')
      (reads : ∀ keywords behindValue, Lexeme.scan keywords behindValue mark (front ++ [mark]) =
        .ok ⟨.stringLit, content, (front ++ [mark]).length⟩) :
      Spelled .stringLit content (mark :: (front ++ [mark]))
  /-- A comment stays on its line. -/
  | comment {content chars : List Char} (nonempty : chars ≠ []) (noFeed : '\n' ∉ chars) :
      Spelled .comment content chars

namespace Spelled

variable {kind : TokenKind} {value chars : List Char}

/-- The characters of a lexeme do not end with a line feed. -/
theorem exists_last (spelled : Spelled kind value chars) :
    ∃ front last, chars = front ++ [last] ∧ last ≠ '\n' := by
  have inner : ∀ {chars : List Char}, chars ≠ [] → '\n' ∉ chars →
      ∃ front last, chars = front ++ [last] ∧ last ≠ '\n' := by
    intro chars nonempty noFeed
    refine ⟨chars.dropLast, chars.getLast nonempty,
      (List.dropLast_concat_getLast nonempty).symm, ?_⟩
    exact fun same => noFeed (same ▸ List.getLast_mem nonempty)
  cases spelled with
  | verbatim plain nonempty noFeed => exact inner nonempty noFeed
  | minus => exact ⟨[], '-', rfl, by decide⟩
  | number nonempty tight =>
    refine inner nonempty fun member => ?_
    exact absurd (tight _ member) (by decide)
  | pattern => exact ⟨'/' :: _, '/', rfl, by decide⟩
  | @string mark content front quote reads =>
    refine ⟨mark :: front, mark, rfl, ?_⟩
    rcases quote with rfl | rfl <;> decide
  | comment nonempty noFeed => exact inner nonempty noFeed

end Spelled

/-! ## Scanned lexemes -/

variable {keywords : KeywordTable}

/-- The characters of a mark spell it. -/
theorem spelled_mark {kind : TokenKind} (isMark : markChars kind ≠ []) :
    Spelled kind (markChars kind) (markChars kind) := by
  have noFeed : '\n' ∉ markChars kind := by cases kind <;> decide
  by_cases verbatim : kind.isVerbatim = true
  · exact .verbatim verbatim isMark noFeed
  · -- among the marks, only the minus sign is listed apart
    obtain rfl : kind = .minus := by
      cases kind <;> first | rfl | exact absurd rfl verbatim | exact absurd rfl isMark
    exact .minus

/-- A string that is spelled is read back from its characters. -/
theorem spelled_string (spelling : Spelling) {quote : Char} {front : List Char}
    (isQuote : quote = '"' ∨ quote = '\'') (chars : spelling.chars = quote :: (front ++ [quote]))
    (isString : ∀ keywords, spelling.kind keywords = .stringLit)
    (fits : ∀ behindValue, spelling.fits behindValue = true) :
    Spelled .stringLit spelling.value spelling.chars := by
  rw [chars]
  refine .string isQuote fun keywords behindValue => ?_
  obtain ⟨_, _, same, _, _, scanned⟩ :=
    spelling.scan_chars keywords (fits behindValue) spelling.stops_nil
  obtain ⟨rfl, rfl⟩ := List.cons.inj (chars.symm.trans same)
  rw [List.append_nil, isString] at scanned
  exact scanned

/-- The characters of a lexeme spell it. -/
theorem Spelling.spelled (spelling : Spelling) (plain : keywords.isVerbatim = true) :
    Spelled (spelling.kind keywords) spelling.value spelling.chars := by
  cases spelling with
  | word chars isWord =>
    refine .verbatim (KeywordTable.isVerbatim_kindOf plain _) ?_ fun member => ?_
    · rintro rfl
      cases isWord
    · have continues := isWordChar_of_isWord isWord _ member
      rw [isWordChar_of_ascii (by decide)] at continues
      exact absurd continues (by decide)
  | number numeral =>
    refine .number numeral.chars_ne_nil fun char member => ?_
    -- a number is made of digits and one dot, none of which is white space
    rcases Numeral.mem_chars member with digit | rfl
    · exact isBlank_of_isWordChar (isWordChar_of_isDigit digit)
    · decide
  | mark kind isMark => exact spelled_mark isMark
  | pattern content => exact .pattern (noFeed_of_isPatternBody content.isBody)
  | quoted quote body content isQuote unescapes =>
    exact spelled_string _ isQuote rfl (fun _ => rfl) fun _ => rfl
  | tripled content inside =>
    have chars : (Spelling.tripled content inside).chars =
        '"' :: (('"' :: '"' :: content ++ ['"', '"']) ++ ['"']) := by
      simp [Spelling.chars]
    exact spelled_string _ (.inl rfl) chars (fun _ => rfl) fun _ => rfl
  | comment line isLine =>
    refine .comment (List.cons_ne_nil _ _) ?_
    simp [Spelling.chars, isLine]

namespace Lexeme

variable {behindValue : Bool} {char : Char} {rest : List Char} {lexeme : Lexeme}

/-- A lexeme takes a character and some of those behind it, and they spell it. A comment takes all
of its line. -/
def Spells (lexeme : Lexeme) (char : Char) (rest : List Char) : Prop :=
  ∃ others tail, rest = others ++ tail ∧ lexeme.extra = others.length ∧
    Spelled lexeme.kind lexeme.value (char :: others) ∧
    (lexeme.kind = .comment → tail ≠ [] → tail.head? = some '\n')

/-- A lexeme is spelled with the characters that it takes. -/
theorem spells_of_scan (plain : keywords.isVerbatim = true)
    (scanned : scan keywords behindValue char rest = .ok lexeme) : lexeme.Spells char rest := by
  obtain ⟨spelling, others, tail, chars, rfl, rfl, _, stops⟩ := isSpelled_of_scan scanned
  have spelled := spelling.spelled plain
  rw [chars] at spelled
  refine ⟨others, tail, rfl, rfl, spelled, fun isComment nonempty => ?_⟩
  obtain ⟨line, isLine, rfl⟩ :=
    Spelling.eq_comment_of_kind (KeywordTable.kindOf_ne plain rfl) isComment
  obtain ⟨next, more, rfl⟩ := List.exists_cons_of_ne_nil nonempty
  have feed : next = '\n' := by simpa [Spelling.stops] using stops
  rw [feed]
  rfl

end Lexeme

/-! ## Strings that are read back -/

/-- The characters of a string are read as this string and nothing else. -/
theorem codeTokens_of_spelled {content chars : List Char}
    (spelled : Spelled .stringLit content chars) (keywords : KeywordTable) (file : String)
    (start : Position) :
    (codeTokens keywords file start (String.ofList chars)).map
        (List.map fun token => (token.kind, token.value)) =
      .ok [(.stringLit, String.ofList content), (.endOfInput, "")] := by
  cases spelled with
  | verbatim plain => cases plain
  | @string mark _ front quote reads =>
    have space : isCodeSpace mark = false := by rcases quote with rfl | rfl <;> decide
    have feed : mark ≠ '\n' := by rcases quote with rfl | rfl <;> decide
    rw [codeTokens, String.toList_ofList, codeTokensFrom, if_neg (by rw [space]; decide),
      if_neg feed, reads]
    simp only [List.drop_length]
    rw [codeTokensFrom]
    rfl

end DocGrammar
