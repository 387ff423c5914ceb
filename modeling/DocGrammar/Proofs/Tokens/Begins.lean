import DocGrammar.Proofs.Tokens.Lines
import DocGrammar.Proofs.Tokens.Spelled

/-! # Texts that begin with symbols

Names and marks are read alike wherever they stand, up to slashes, which divide or open a pattern.
A text that becomes such tokens begins with the symbols that they say, and any other text that
begins with these symbols becomes such tokens as well, in the words of any table that reserves none
of the names.

* **`Begins`** — a text begins with some symbols, with spaces around them.
* **`Begins.exists_tokens`** — such a text becomes tokens that say the symbols.
* **`exists_begins`** — a text that becomes names and marks begins with symbols. -/

namespace DocGrammar

/-! ## Texts behind symbols -/

/-- A text begins with some symbols, and another text is left behind them. -/
inductive Begins {keywords : KeywordTable} :
    List Char → List (Symbol keywords) → List Char → Prop where
  /-- Every text begins with no symbols. -/
  | nil (text : List Char) : Begins text [] text
  /-- A space may stand before the symbols. -/
  | space {char : Char} {text rest : List Char} {symbols : List (Symbol keywords)}
      (isSpace : isCodeSpace char = true) (behind : Begins text symbols rest) :
      Begins (char :: text) symbols rest
  /-- A word or a mark that stops before a text and can be read anywhere stands before it. -/
  | symbol {first : Symbol keywords} {text rest : List Char} {symbols : List (Symbol keywords)}
      (noLiteral : first.isLiteral = false) (fits : ∀ behindValue, first.fits behindValue)
      (stops : first.stops text = true) (behind : Begins text symbols rest) :
      Begins (first.chars ++ text) (first :: symbols) rest

/-- Whether a text starts with nothing that a word or a mark could run into. -/
def IsApart (text : List Char) : Prop := ∀ char ∈ text.head?, char = ' ' ∨ char = ')'

variable {keywords : KeywordTable} {text middle rest more : List Char}
  {symbols others : List (Symbol keywords)}

@[simp] theorem isApart_nil : IsApart [] := by simp [IsApart]

@[simp] theorem isApart_cons (char : Char) (tail : List Char) :
    IsApart (char :: tail) ↔ char = ' ' ∨ char = ')' := by
  simp [IsApart]

namespace Symbol

/-- Neither a word nor a mark runs into a closing parenthesis. -/
theorem stops_paren {symbol : Symbol keywords} (noLiteral : symbol.isLiteral = false)
    (tail : List Char) : symbol.stops (')' :: tail) = true := by
  have word : isWordChar ')' = false := isWordChar_of_ascii (by decide)
  cases symbol with
  | word => simp [stops, word]
  | mark kind =>
    show markStops (markChars kind) (')' :: tail) = true
    unfold markStops
    split
    · next first next _ _ shape =>
      obtain ⟨rfl, rfl⟩ := List.cons.inj shape
      simp [pairOperator?]
    · rfl
  | _ => exact Bool.noConfusion noLiteral

/-- A name stops before a character that no word goes on with. -/
theorem stops_name (name : Identifier keywords) {char : Char} (outside : isWordChar char = false)
    (tail : List Char) : (Symbol.name name).stops (char :: tail) = true := by
  show (!(char :: tail).head?.any isWordChar) = true
  rw [List.head?_cons, Option.any_some, outside]
  rfl

/-- Every word and every mark stops before a text that is apart from it. -/
theorem stops_of_isApart {symbol : Symbol keywords} (noLiteral : symbol.isLiteral = false)
    (apart : IsApart more) : symbol.stops more = true := by
  cases more with
  | nil => exact symbol.stops_nil
  | cons char tail =>
    rcases apart char rfl with rfl | rfl
    · exact symbol.stops_space tail
    · exact stops_paren noLiteral tail

/-- Whether a word or a mark stops before a text depends only on the first character of the text. -/
theorem stops_append {symbol : Symbol keywords} (noLiteral : symbol.isLiteral = false)
    (apart : IsApart more) {tail : List Char} (stops : symbol.stops tail = true) :
    symbol.stops (tail ++ more) = true := by
  cases tail with
  | nil => exact stops_of_isApart noLiteral apart
  | cons char tail =>
    cases symbol with
    | word => exact stops
    | mark kind => exact (markStops_cons (markChars kind) char _ tail).trans stops
    | _ => exact Bool.noConfusion noLiteral

end Symbol

/-- What is neither a slash nor a pattern can be read behind a value and elsewhere. -/
theorem Symbol.fits_of_kind {symbol : Symbol keywords}
    (other : symbol.kind ∉ [TokenKind.slash, .patternLit]) (behindValue : Bool) :
    symbol.fits behindValue := by
  rw [List.mem_cons, List.mem_singleton, not_or] at other
  exact ⟨fun slash => absurd slash other.1, fun pattern => absurd pattern other.2⟩

/-- Symbols that are neither slashes nor patterns can be read wherever they stand. -/
theorem CodeState.fits_of_kind (state : CodeState)
    (other : ∀ symbol ∈ symbols, symbol.kind ∉ [TokenKind.slash, .patternLit]) :
    state.Fits symbols := by
  induction symbols generalizing state with
  | nil => exact trivial
  | cons symbol symbols ih =>
    obtain ⟨here, other⟩ := List.forall_mem_cons.mp other
    exact ⟨Symbol.fits_of_kind here _, ih _ other⟩

namespace Begins

/-- A symbol other than a slash stands before the others. -/
theorem cons (first : Symbol keywords) (noLiteral : first.isLiteral = false)
    (other : first.kind ∉ [TokenKind.slash, .patternLit]) (stops : first.stops text = true)
    (behind : Begins text symbols rest) : Begins (first.chars ++ text) (first :: symbols) rest :=
  .symbol noLiteral (Symbol.fits_of_kind other) stops behind

/-- A text that begins with symbols still does when another text apart from them follows. -/
theorem append (begins : Begins text symbols rest) (apart : IsApart more) :
    Begins (text ++ more) symbols (rest ++ more) := by
  -- only what stands right behind a symbol decides whether it stops, also behind the last one
  induction begins with
  | nil text => exact .nil _
  | space isSpace _ ih => exact .space isSpace ih
  | symbol noLiteral fits stops _ ih =>
    rw [List.append_assoc]
    exact .symbol noLiteral fits (Symbol.stops_append noLiteral apart stops) ih

/-- A text may begin with some symbols and go on with others. -/
theorem trans (first : Begins text symbols middle) (second : Begins middle others rest) :
    Begins text (symbols ++ others) rest := by
  induction first with
  | nil text => exact second
  | space isSpace _ ih => exact .space isSpace (ih second)
  | symbol noLiteral fits stops _ ih => exact .symbol noLiteral fits stops (ih second)

/-- What is left behind the symbols stands at the end of the text. -/
theorem exists_append (begins : Begins text symbols rest) : ∃ front, text = front ++ rest := by
  induction begins with
  | nil text => exact ⟨[], rfl⟩
  | @space char _ _ _ _ _ ih =>
    obtain ⟨front, rfl⟩ := ih
    exact ⟨char :: front, rfl⟩
  | @symbol first _ _ _ _ _ _ _ ih =>
    obtain ⟨front, rfl⟩ := ih
    exact ⟨first.chars ++ front, (List.append_assoc _ _ _).symm⟩

/-- A text is clean if what is left behind its symbols is. -/
theorem isCleanText (begins : Begins text symbols rest) (clean : isCleanText rest = true) :
    DocGrammar.isCleanText text = true := by
  induction begins with
  | nil text => exact clean
  | @space char text rest symbols isSpace _ ih =>
    have allowed : isForbidden char = false := by
      simp only [isCodeSpace, Bool.or_eq_true, decide_eq_true_eq] at isSpace
      rcases isSpace with (rfl | rfl) | rfl <;> decide
    rw [isCleanText_cons, allowed, ih clean]
    rfl
  | symbol noLiteral _ _ _ ih =>
    have here := Symbol.isClean_of_noLiteral noLiteral
    rw [isCleanText_append, ih clean, Bool.and_true]
    exact here

/-- A text that begins with symbols becomes tokens that say them, and behind them the tokens of the
text that is left. -/
theorem exists_tokens (begins : Begins text symbols rest) (file : String) (state : CodeState) :
    ∃ tokens later, Says tokens symbols ∧ codeTokensFrom keywords file state text =
      (codeTokensFrom keywords file later rest).map (tokens ++ ·) := by
  induction begins generalizing state with
  | nil text =>
    refine ⟨[], state, .nil, ?_⟩
    cases codeTokensFrom keywords file state text <;> rfl
  | @space char text rest symbols isSpace _ ih =>
    obtain ⟨tokens, later, told, same⟩ := ih (state.skip [char])
    refine ⟨tokens, later, told, ?_⟩
    rw [codeTokensFrom, if_pos isSpace, same]
  | @symbol first text rest symbols noLiteral fits stops _ ih =>
    -- a symbol other than a line end becomes a token wherever it stands
    have noFeed : first.isFeed = false := by
      cases first with
      | newline => exact Bool.noConfusion noLiteral
      | _ => rfl
    have kept : state.keeps first = true := by
      rw [CodeState.keeps, noFeed]
      rfl
    have read := codeTokensFrom_chars file state first (fits _) stops
    rw [if_pos kept] at read
    obtain ⟨token, tells, here⟩ := read
    obtain ⟨tokens, later, told, behind⟩ := ih (state.past first)
    refine ⟨token :: tokens, later, .cons tells told, ?_⟩
    rw [here, behind]
    cases codeTokensFrom keywords file later rest <;> rfl

/-- A text that holds nothing but symbols becomes tokens that say them, up to the end of the
input. -/
theorem exists_codeTokens {text : String} (begins : Begins text.toList symbols [])
    (file : String) (start : Position) :
    ∃ tokens last, codeTokens keywords file start text = .ok (tokens ++ [last]) ∧
      Says tokens symbols ∧ last.kind = .endOfInput := by
  obtain ⟨tokens, later, told, lexed⟩ := begins.exists_tokens file (.start start)
  -- nothing is left, so the end of the input follows
  refine ⟨tokens, codeToken file later.position .endOfInput [] [], ?_, told, rfl⟩
  rw [codeTokens, lexed, codeTokensFrom]
  rfl

end Begins

/-! ## Names and marks -/

/-- The letter x is a word. -/
theorem isWord_x : isWord "x".toList = true := by decide

/-- Whether tokens of a kind are read alike wherever they stand: names are, and so are marks other
than slashes. -/
def TokenKind.isFixed (kind : TokenKind) : Bool :=
  kind = .identifier || (!(markChars kind).isEmpty && kind ≠ .slash)

/-- Whether the kinds that a table reserves are neither those of names nor those of marks. -/
def KeywordTable.isSeparate (keywords : KeywordTable) : Bool :=
  keywords.all fun entry => entry.2.isVerbatim && !entry.2.isFixed

/-- A word of a fixed kind is a name. -/
theorem KeywordTable.kindOf_of_isFixed (separate : keywords.isSeparate = true) {word : String}
    (fixed : (keywords.kindOf word).isFixed = true) : keywords.kindOf word = .identifier := by
  rcases keywords.kindOf_cases word with free | reserved
  · exact free
  · obtain ⟨entry, member, same⟩ := List.mem_map.mp reserved
    have apart := List.all_eq_true.mp separate entry member
    rw [same, fixed, Bool.not_true, Bool.and_false] at apart
    exact Bool.noConfusion apart

theorem KeywordTable.isSeparate_none : KeywordTable.none.isSeparate = true := rfl

theorem KeywordTable.isSeparate_specs : KeywordTable.specs.isSeparate = true := rfl

theorem KeywordTable.isVerbatim_of_isSeparate (separate : keywords.isSeparate = true) :
    keywords.isVerbatim = true := by
  refine List.all_eq_true.mpr fun entry member => ?_
  have apart := List.all_eq_true.mp separate entry member
  rw [Bool.and_eq_true] at apart
  exact apart.1

namespace Lexeme

variable {behindValue : Bool} {char : Char} {lexeme : Lexeme}

/-- Whether a lexeme at the head of a text is a symbol in the words of a table. -/
def IsSymbol (lexeme : Lexeme) (keywords : KeywordTable) (char : Char) (rest : List Char) : Prop :=
  ∃ (symbol : Symbol keywords) (inner tail : List Char), rest = inner ++ tail ∧
    lexeme.extra = inner.length ∧ symbol.chars = char :: inner ∧ symbol.isLiteral = false ∧
    symbol.kind = lexeme.kind ∧ symbol.value = String.ofList lexeme.value ∧
    symbol.stops tail = true

/-- A lexeme of a fixed kind is a symbol, also in the words of another table that does not reserve
it. -/
theorem isSymbol_of_scan {table : KeywordTable} (separate : keywords.isSeparate = true)
    (scanned : scan keywords behindValue char rest = .ok lexeme)
    (fixed : lexeme.kind.isFixed = true)
    (free : lexeme.kind = .identifier →
      table.kindOf (String.ofList lexeme.value) = .identifier) :
    lexeme.IsSymbol table char rest := by
  obtain ⟨spelling, others, tail, chars, rfl, rfl, _, stops⟩ := isSpelled_of_scan scanned
  cases spelling with
  | word text word =>
    have named := KeywordTable.kindOf_of_isFixed separate fixed
    have text' : (String.ofList text).toList = text := String.toList_ofList
    exact ⟨.word .identifier (String.ofList text) (text'.symm ▸ word) (free named), others, tail,
      rfl, rfl, text'.trans chars, rfl, named.symm, rfl, stops⟩
  | mark kind isMark =>
    exact ⟨.mark kind isMark, others, tail, rfl, rfl, chars, rfl, rfl, rfl, stops⟩
  -- comments and literals are not of a fixed kind
  | _ => exact Bool.noConfusion fixed

/-- Only two slashes start a comment. -/
theorem exists_of_scan_comment (separate : keywords.isSeparate = true)
    (scanned : scan keywords behindValue char rest = .ok lexeme)
    (isComment : lexeme.kind = .comment) : char = '/' ∧ ∃ others, rest = '/' :: others := by
  have plain := KeywordTable.isVerbatim_of_isSeparate separate
  obtain ⟨spelling, others, tail, chars, rfl, rfl, _⟩ := isSpelled_of_scan scanned
  obtain ⟨line, isLine, rfl⟩ :=
    Spelling.eq_comment_of_kind (KeywordTable.kindOf_ne plain rfl) isComment
  obtain ⟨rfl, rfl⟩ := List.cons.inj chars
  exact ⟨rfl, line ++ tail, rfl⟩

end Lexeme

/-- No lexeme ends a line or the input. -/
theorem Spelled.kind_ne {kind : TokenKind} {value chars : List Char}
    (spelled : Spelled kind value chars) : kind ≠ .newline ∧ kind ≠ .endOfInput := by
  constructor
  · rintro rfl
    cases spelled with
    | verbatim plain => cases plain
  · rintro rfl
    cases spelled with
    | verbatim plain => cases plain

/-! ## Texts of names and marks -/

variable {file : String} {state : CodeState} {tokens : List Token}

/-- The tokens of a text on one line are followed by the end of the input, and none of them is the
end of a line. -/
theorem exists_last_of_codeTokensFrom (separate : keywords.isSeparate = true)
    (isLine : '\n' ∉ text) (lexed : codeTokensFrom keywords file state text = .ok tokens) :
    ∃ read last, tokens = read ++ [last] ∧ last.kind = .endOfInput ∧
      ∀ token ∈ read, token.kind ≠ .newline ∧ token.kind ≠ .endOfInput := by
  have verbatim := KeywordTable.isVerbatim_of_isSeparate separate
  -- by the recursion of the lexer; its cases for line ends cannot occur on one line
  fun_induction codeTokensFrom keywords file state text generalizing tokens with
  | case1 state =>
    cases lexed
    exact ⟨[], _, rfl, rfl, List.forall_mem_nil _⟩
  | case2 state char rest isSpace ih =>
    exact ih (fun member => isLine (List.mem_cons_of_mem _ member)) lexed
  | case3 => exact absurd List.mem_cons_self isLine
  | case4 => exact absurd List.mem_cons_self isLine
  | case5 => cases lexed
  | case6 state char rest space noFeed lexeme scanned chars =>
    rename_i ih
    obtain ⟨others, behind, last⟩ := exists_of_bind_ok lexed
    cases last
    obtain ⟨read, last, rfl, ends, inner⟩ :=
      ih (fun member => isLine (List.mem_cons_of_mem _ (List.mem_of_mem_drop member))) behind
    obtain ⟨_, _, _, _, spelled, _⟩ := Lexeme.spells_of_scan verbatim scanned
    exact ⟨_ :: read, last, rfl, ends, List.forall_mem_cons.mpr ⟨spelled.kind_ne, inner⟩⟩

/-- A text on one line that becomes names, marks and comments begins with symbols, in the words of
any table that reserves none of the names, and is left with nothing or with a comment. -/
theorem exists_begins (table : KeywordTable) (separate : keywords.isSeparate = true)
    (isLine : '\n' ∉ text) (lexed : codeTokensFrom keywords file state text = .ok tokens)
    (kinds : ∀ token ∈ tokens, token.kind.isFixed = true ∨ token.kind = .comment ∨
      token.kind = .endOfInput)
    (free : ∀ token ∈ tokens, token.kind = .identifier →
      table.kindOf token.value = .identifier) :
    ∃ (symbols : List (Symbol table)) (rest : List Char), Begins text symbols rest ∧
      ((rest = [] ∧ ∃ read last, tokens = read ++ [last] ∧ Says read symbols) ∨
        (∃ others, rest = '/' :: '/' :: others) ∧ ∃ token ∈ tokens, token.kind = .comment) := by
  have verbatim := KeywordTable.isVerbatim_of_isSeparate separate
  -- by the recursion of the lexer: a lexeme is a symbol, or it is a comment and nothing is read
  -- behind it
  fun_induction codeTokensFrom keywords file state text generalizing tokens with
  | case1 state =>
    cases lexed
    exact ⟨[], [], .nil [], .inl ⟨rfl, [], _, rfl, .nil⟩⟩
  | case2 state char rest isSpace ih =>
    obtain ⟨symbols, left, begins, outcome⟩ :=
      ih (fun member => isLine (List.mem_cons_of_mem _ member)) lexed kinds free
    exact ⟨symbols, left, .space isSpace begins, outcome⟩
  | case3 => exact absurd List.mem_cons_self isLine
  | case4 => exact absurd List.mem_cons_self isLine
  | case5 => cases lexed
  | case6 state char rest space noFeed lexeme scanned chars =>
    rename_i ih
    obtain ⟨others, behind, whole⟩ := exists_of_bind_ok lexed
    cases whole
    rw [List.forall_mem_cons] at kinds free
    rcases kinds.1 with fixed | isComment | isEnd
    · obtain ⟨symbol, inner, tail, rfl, extra, spelled, noLiteral, kind, value, stops⟩ :=
        Lexeme.isSymbol_of_scan separate scanned fixed free.1
      -- the lexer goes on where the spelling of the symbol ends
      have left : (inner ++ tail).drop lexeme.extra = tail := by
        rw [extra, List.drop_left]
      rw [left] at behind ih
      have isLine' : '\n' ∉ tail := fun member =>
        isLine (List.mem_cons_of_mem _ (List.mem_append_right _ member))
      obtain ⟨symbols, last, begins, outcome⟩ := ih isLine' behind kinds.2 free.2
      have other : symbol.kind ∉ [TokenKind.slash, .patternLit] := by
        have varied : ∀ kind ∈ [TokenKind.slash, .patternLit], kind.isFixed = false := by decide
        intro member
        have varies := varied _ member
        rw [kind] at varies
        exact Bool.noConfusion (varies.symm.trans fixed)
      refine ⟨symbol :: symbols, last, ?_, ?_⟩
      · rw [← List.cons_append, ← spelled]
        exact .cons symbol noLiteral other stops begins
      · rcases outcome with ⟨rfl, read, finish, rfl, told⟩ | ⟨comment, token, member, isComment⟩
        · exact .inl ⟨rfl, _ :: read, finish, rfl, .cons ⟨kind.symm, value.symm⟩ told⟩
        · exact .inr ⟨comment, token, List.mem_cons_of_mem _ member, isComment⟩
    · obtain ⟨rfl, others, rfl⟩ := Lexeme.exists_of_scan_comment separate scanned isComment
      exact ⟨[], _, .nil _, .inr ⟨⟨others, rfl⟩, _, List.mem_cons_self, isComment⟩⟩
    · obtain ⟨_, _, _, _, spelled, _⟩ := Lexeme.spells_of_scan verbatim scanned
      exact absurd isEnd spelled.kind_ne.2

/-- What stands behind two slashes on a line becomes a comment. -/
theorem exists_comment (keywords : KeywordTable) (file : String) (state : CodeState)
    {others : List Char} (isLine : '\n' ∉ others) :
    ∃ comment last, comment.kind = .comment ∧
      codeTokensFrom keywords file state ('/' :: '/' :: others) = .ok [comment, last] := by
  -- on one line the comment takes everything
  have whole : others.takeWhile (· ≠ '\n') = others := by
    refine List.takeWhile_eq_self_iff.mpr fun char member => ?_
    have other : char ≠ '\n' := fun same => isLine (same ▸ member)
    exact decide_eq_true other
  have scanned : Lexeme.scan keywords state.isBehindValue '/' ('/' :: others) =
      .ok ⟨.comment, trim others, others.length + 1⟩ := by
    show Except.ok (Lexeme.comment others) = _
    rw [Lexeme.comment, whole]
  have left : ('/' :: others).drop (others.length + 1) = [] := List.drop_length
  rw [codeTokensFrom, if_neg (by decide), if_neg (by decide), scanned]
  simp only [left]
  rw [codeTokensFrom]
  exact ⟨_, _, rfl, rfl⟩

end DocGrammar
