import DocGrammar.Proofs.Tokens.Characters

/-! # Symbols and their spelling

A symbol is what a token says wherever it stands: its kind and its value. Every symbol is spelled
by characters that the lexer reads back, provided that what stands behind does not run into them.

* **`Symbol`** — a word, a literal, an operator or a line end, in the words of a keyword table.
* **`Symbol.chars`** — the spelling of a symbol.
* **`Symbol.stops`** — whether a symbol ends where its spelling does.
* **`Says`** — tokens that say some symbols. -/

namespace DocGrammar

/-! ## Words -/

/-- Whether characters form a word. -/
def isWord : List Char → Bool
  | [] => false
  | first :: others => isWordStart first && others.all isWordChar

theorem isWordChar_of_isWord {chars : List Char} (word : isWord chars = true) :
    ∀ char ∈ chars, isWordChar char = true := by
  cases chars with
  | nil => exact fun _ member => absurd member List.not_mem_nil
  | cons first others =>
    rw [isWord, Bool.and_eq_true] at word
    intro char member
    rcases List.mem_cons.mp member with rfl | further
    · exact isWordChar_of_isWordStart word.1
    · exact List.all_eq_true.mp word.2 char further

/-- A word that a table does not reserve. -/
structure Identifier (keywords : KeywordTable) where
  /-- The word. -/
  text : String
  /-- It is a word. -/
  isWord : isWord text.toList = true
  /-- It is not reserved. -/
  isFree : keywords.kindOf text = .identifier
  deriving DecidableEq, Repr

/-! ## Numbers and patterns -/

/-- A number: digits, and a fraction unless there are no digits in it. -/
structure Numeral where
  /-- The digits before the point. -/
  whole : List Char
  /-- The digits behind the point. -/
  fraction : List Char
  /-- There are digits before the point. -/
  nonempty : whole ≠ []
  /-- There are only digits before the point. -/
  wholeDigits : whole.all isDigit = true
  /-- There are only digits behind the point. -/
  fractionDigits : fraction.all isDigit = true
  deriving DecidableEq, Repr

/-- The characters of a number. -/
def Numeral.chars (numeral : Numeral) : List Char :=
  if numeral.fraction.isEmpty then numeral.whole else numeral.whole ++ '.' :: numeral.fraction

theorem Numeral.chars_ne_nil (numeral : Numeral) : numeral.chars ≠ [] := by
  unfold Numeral.chars
  split
  · exact numeral.nonempty
  · exact List.append_ne_nil_of_right_ne_nil _ (List.cons_ne_nil _ _)

/-- The characters of a number are digits and points. -/
theorem Numeral.mem_chars {numeral : Numeral} {char : Char} (member : char ∈ numeral.chars) :
    isDigit char = true ∨ char = '.' := by
  have whole := List.all_eq_true.mp numeral.wholeDigits
  have fraction := List.all_eq_true.mp numeral.fractionDigits
  unfold Numeral.chars at member
  by_cases short : numeral.fraction.isEmpty = true
  · rw [if_pos short] at member
    exact .inl (whole char member)
  · rw [if_neg short, List.mem_append, List.mem_cons] at member
    rcases member with before | rfl | behind
    · exact .inl (whole char before)
    · exact .inr rfl
    · exact .inl (fraction char behind)

/-- Whether characters can stand between the slashes of a pattern: every slash and every backslash
has a backslash before it, and no line ends. -/
def isPatternBody : List Char → Bool
  | [] => true
  | '\\' :: char :: rest => char ≠ '\n' && isPatternBody rest
  | char :: rest => char ≠ '\\' && char ≠ '/' && char ≠ '\n' && isPatternBody rest

/-- No line ends between the slashes of a pattern. -/
theorem noFeed_of_isPatternBody {content : List Char} (isBody : isPatternBody content = true) :
    '\n' ∉ content := by
  fun_induction isPatternBody content with
  | case1 => exact List.not_mem_nil
  | case2 char rest ih =>
    simp only [Bool.and_eq_true, decide_eq_true_eq] at isBody
    simp [Ne.symm isBody.1, ih isBody.2]
  | case3 char rest other ih =>
    simp only [Bool.and_eq_true, decide_eq_true_eq] at isBody
    simp [Ne.symm isBody.1.2, ih isBody.2]

/-- The content of a pattern, which is not empty. -/
structure PatternText where
  /-- The content. -/
  text : String
  /-- It is not empty. -/
  nonempty : text.toList ≠ []
  /-- It can stand between slashes. -/
  isBody : isPatternBody text.toList = true
  deriving DecidableEq, Repr

/-- The content of every pattern that can be read can stand between slashes. -/
theorem isPatternBody_of_patternContent? (chars : List Char) :
    ∀ content, Lexeme.patternContent? chars = some content → isPatternBody content = true := by
  fun_induction Lexeme.patternContent? chars with
  | case1 => simp
  | case2 rest =>
    rintro _ ⟨⟩
    rfl
  | case3 rest => simp
  | case4 rest => simp
  | case5 char rest other ih =>
    intro content found
    obtain ⟨inner, innerFound, rfl⟩ := Option.map_eq_some_iff.mp found
    simp [isPatternBody, other, ih inner innerFound]
  | case6 char rest slash feed backslash ih =>
    intro content found
    obtain ⟨inner, innerFound, rfl⟩ := Option.map_eq_some_iff.mp found
    -- a backslash with a character behind it is another case
    have plain : char ≠ '\\' := by
      rintro rfl
      cases rest with
      | nil => simp [Lexeme.patternContent?] at innerFound
      | cons next others => exact backslash next others rfl rfl
    have notSlash : char ≠ '/' := slash
    have notFeed : char ≠ '\n' := feed
    rw [isPatternBody]
    · simp [plain, notSlash, notFeed, ih inner innerFound]
    · intro _ _ same
      exact absurd same plain

/-! ## Spelling strings -/

/-- How a character is spelled in a string. -/
def spelledChar (char : Char) : List Char :=
  if char = '\n' then ['\\', 'n']
  else if char = '\r' then ['\\', 'r']
  else if char = '\t' then ['\\', 't']
  else if char = Char.ofNat 0 then ['\\', '0']
  else if char = '"' || char = '\\' then ['\\', char]
  else [char]

/-- How a string is spelled behind its opening mark. -/
def spelledBody (content : List Char) : List Char :=
  content.flatMap spelledChar ++ ['"']

/-! ## Operators and punctuation -/

/-- The characters of an operator or punctuation mark; tokens of other kinds have none. -/
def markChars : TokenKind → List Char
  | .arrow => ['-', '>']
  | .resultArrow => ['→']
  | .iff => ['⟺']
  | .pipeArrow => ['|', '>']
  | .equal => ['=', '=']
  | .notEqual => ['!', '=']
  | .less => ['<']
  | .greater => ['>']
  | .lessEqual => ['<', '=']
  | .greaterEqual => ['>', '=']
  | .and => ['&', '&']
  | .or => ['|', '|']
  | .bang => ['!']
  | .assign => ['=']
  | .plus => ['+']
  | .minus => ['-']
  | .star => ['*']
  | .slash => ['/']
  | .percent => ['%']
  | .dot => ['.']
  | .dotDot => ['.', '.']
  | .doubleColon => [':', ':']
  | .leftParen => ['(']
  | .rightParen => [')']
  | .leftBracket => ['[']
  | .rightBracket => [']']
  | .leftBrace => ['\x7b']
  | .rightBrace => ['\x7d']
  | .comma => [',']
  | .colon => [':']
  | .semicolon => [';']
  | .pipe => ['|']
  | _ => []

/-- The words for truth values. -/
theorem isWord_truth (value : Bool) : isWord (cond value "true" "false").toList = true := by
  cases value <;> decide

/-! ## Symbols -/

/-- What a token of code says. -/
inductive Symbol (keywords : KeywordTable) where
  /-- A word, of the kind that the table assigns to it. -/
  | word (kind : TokenKind) (text : String) (isWord : isWord text.toList = true)
      (assigned : keywords.kindOf text = kind)
  /-- A number. -/
  | number (numeral : Numeral)
  /-- A string. -/
  | string (content : String)
  /-- A pattern. -/
  | pattern (content : PatternText)
  /-- An operator or punctuation mark. -/
  | mark (kind : TokenKind) (isMark : markChars kind ≠ [] := by decide)
  /-- The end of a line. -/
  | newline

namespace Symbol

variable {keywords : KeywordTable}

/-! ### Punctuation -/

/-- The comma between the entries of a list. -/
@[reducible] def comma : Symbol keywords := .mark .comma

/-- The colon between a name and what it names. -/
@[reducible] def colon : Symbol keywords := .mark .colon

/-- The point in front of a property. -/
@[reducible] def dot : Symbol keywords := .mark .dot

/-- The bar between alternatives. -/
@[reducible] def pipe : Symbol keywords := .mark .pipe

/-- The sign between a name and the value that it gets. -/
@[reducible] def assign : Symbol keywords := .mark .assign

@[reducible] def leftParen : Symbol keywords := .mark .leftParen

@[reducible] def rightParen : Symbol keywords := .mark .rightParen

@[reducible] def leftBracket : Symbol keywords := .mark .leftBracket

@[reducible] def rightBracket : Symbol keywords := .mark .rightBracket

@[reducible] def leftBrace : Symbol keywords := .mark .leftBrace

@[reducible] def rightBrace : Symbol keywords := .mark .rightBrace

/-! ### Tokens that say symbols -/

/-- The symbol of a word that is not reserved. -/
def name (identifier : Identifier keywords) : Symbol keywords :=
  .word .identifier identifier.text identifier.isWord identifier.isFree

/-- The kind of a token that says a symbol. -/
def kind : Symbol keywords → TokenKind
  | word kind _ _ _ => kind
  | number _ => .numberLit
  | string _ => .stringLit
  | pattern _ => .patternLit
  | mark kind _ => kind
  | newline => .newline

/-- The value of a token that says a symbol. -/
def value : Symbol keywords → String
  | word _ text _ _ => text
  | number numeral => String.ofList numeral.chars
  | string content => content
  | pattern content => content.text
  | mark kind _ => String.ofList (markChars kind)
  | newline => "\n"

/-- The characters that spell a symbol. -/
def chars : Symbol keywords → List Char
  | word _ text _ _ => text.toList
  | number numeral => numeral.chars
  | string content => '"' :: spelledBody content.toList
  | pattern content => '/' :: content.text.toList ++ ['/']
  | mark kind _ => markChars kind
  | newline => ['\n']

/-- Whether a symbol is the end of a line. -/
def isFeed : Symbol keywords → Bool
  | newline => true
  | _ => false

/-- Whether a symbol is spelled by a content of its own: it is neither a word nor a mark. -/
def isLiteral : Symbol keywords → Bool
  | word _ _ _ _ | mark _ _ => false
  | _ => true

/-- Whether a text starts with a point and a digit. -/
def startsFraction : List Char → Bool
  | '.' :: digit :: _ => isDigit digit
  | _ => false

/-- Whether an operator of the given characters ends before a text. -/
def markStops (chars tail : List Char) : Bool :=
  match chars, tail with
  | [first], next :: _ => (pairOperator? first next).isNone && !(first = '/' && next = '/')
  | _, _ => true

/-- Whether a symbol ends where its spelling does when the given text follows: nothing that stands
there continues the word, the number or the operator, or makes a triple quote of an empty
string. -/
def stops (symbol : Symbol keywords) (tail : List Char) : Bool :=
  match symbol with
  | word _ _ _ _ => !tail.head?.any isWordChar
  | number _ => !tail.head?.any isDigit && !startsFraction tail
  | string content => !content.isEmpty || tail.head? ≠ some '"'
  | pattern _ => true
  | mark kind _ => markStops (markChars kind) tail
  | newline => true

/-- Whether a symbol can be read behind a value or elsewhere: a slash divides values, and a pattern
stands where no value does. -/
def fits (symbol : Symbol keywords) (behindValue : Bool) : Prop :=
  (symbol.kind = .slash → behindValue = true) ∧ (symbol.kind = .patternLit → behindValue = false)

/-- Every symbol ends before a space. -/
theorem stops_space (symbol : Symbol keywords) (tail : List Char) :
    symbol.stops (' ' :: tail) = true := by
  have word : isWordChar ' ' = false := isWordChar_of_ascii (by decide)
  have digit : isDigit ' ' = false := isDigit_of_ascii (by decide)
  cases symbol with
  | word => simp [stops, word]
  | number => simp [stops, digit, startsFraction]
  | string => simp [stops]
  | pattern => rfl
  | mark kind =>
    show markStops (markChars kind) (' ' :: tail) = true
    unfold markStops
    split
    · next first next _ _ shape =>
      obtain ⟨rfl, rfl⟩ := List.cons.inj shape
      simp [pairOperator?]
    · rfl
  | newline => rfl

end Symbol

/-! ## What tokens say -/

/-- What a token says, wherever it stands. -/
def Token.said (token : Token) : TokenKind × String := (token.kind, token.value)

theorem Token.kind_of_said {token other : Token} (same : other.said = token.said) :
    other.kind = token.kind :=
  congrArg Prod.fst same

theorem Token.value_of_said {token other : Token} (same : other.said = token.said) :
    other.value = token.value :=
  congrArg Prod.snd same

/-! ## Tokens that say symbols -/

variable {keywords : KeywordTable}

/-- Whether a token says a symbol. -/
structure Token.Tells (token : Token) (symbol : Symbol keywords) : Prop where
  /-- It has the kind of the symbol. -/
  kind : token.kind = symbol.kind
  /-- It has the value of the symbol. -/
  value : token.value = symbol.value

/-- Tokens that say some symbols, one each. -/
inductive Says : List Token → List (Symbol keywords) → Prop where
  /-- No token says nothing. -/
  | nil : Says [] []
  /-- A token that says a symbol before tokens that say others. -/
  | cons {token : Token} {tokens : List Token} {symbol : Symbol keywords}
      {symbols : List (Symbol keywords)} (head : token.Tells symbol) (tail : Says tokens symbols) :
      Says (token :: tokens) (symbol :: symbols)

/-- What says one symbol after others starts with a token that says the former. -/
theorem Says.of_cons {tokens : List Token} {symbol : Symbol keywords}
    {symbols : List (Symbol keywords)} (told : Says tokens (symbol :: symbols)) :
    ∃ token more, tokens = token :: more ∧ token.Tells symbol ∧ Says more symbols := by
  cases told with
  | cons head tail => exact ⟨_, _, rfl, head, tail⟩

/-- What says two rows of symbols falls into what says the first and what says the second. -/
theorem Says.of_append {tokens : List Token} {symbols others : List (Symbol keywords)}
    (told : Says tokens (symbols ++ others)) :
    ∃ first second, tokens = first ++ second ∧ Says first symbols ∧ Says second others := by
  induction symbols generalizing tokens with
  | nil => exact ⟨[], tokens, rfl, .nil, told⟩
  | cons symbol symbols ih =>
    obtain ⟨token, more, rfl, head, tail⟩ := told.of_cons
    obtain ⟨first, second, rfl, saysFirst, saysSecond⟩ := ih tail
    exact ⟨token :: first, second, rfl, .cons head saysFirst, saysSecond⟩

/-- What says a single symbol is a single token. -/
theorem Says.of_singleton {tokens : List Token} {symbol : Symbol keywords}
    (told : Says tokens [symbol]) : ∃ token, tokens = [token] ∧ token.Tells symbol := by
  obtain ⟨token, _, rfl, tells, saysNothing⟩ := told.of_cons
  cases saysNothing
  exact ⟨token, rfl, tells⟩

/-- What says symbols and a last one ends with the token that says the latter. -/
theorem Says.of_concat {tokens : List Token} {symbols : List (Symbol keywords)}
    {last : Symbol keywords} (told : Says tokens (symbols ++ [last])) :
    ∃ inner closing, tokens = inner ++ [closing] ∧ Says inner symbols ∧ closing.Tells last := by
  obtain ⟨inner, _, rfl, saysInner, saysLast⟩ := told.of_append
  obtain ⟨closing, rfl, tellsLast⟩ := saysLast.of_singleton
  exact ⟨inner, closing, rfl, saysInner, tellsLast⟩

/-- What says symbols between two others stands between the tokens that say these. -/
theorem Says.of_enclosed {tokens : List Token} {symbols : List (Symbol keywords)}
    {first last : Symbol keywords} (told : Says tokens (first :: (symbols ++ [last]))) :
    ∃ opening inner closing, tokens = opening :: (inner ++ [closing]) ∧ opening.Tells first ∧
      Says inner symbols ∧ closing.Tells last := by
  obtain ⟨opening, _, rfl, tellsFirst, saysRest⟩ := told.of_cons
  obtain ⟨inner, closing, rfl, saysInner, tellsLast⟩ := saysRest.of_concat
  exact ⟨opening, inner, closing, rfl, tellsFirst, saysInner, tellsLast⟩

theorem Says.length_eq {tokens : List Token} {symbols : List (Symbol keywords)}
    (told : Says tokens symbols) : tokens.length = symbols.length := by
  induction told with
  | nil => rfl
  | cons _ _ ih => simp [ih]

/-! ## Kinds that no symbol has -/

/-- A table assigns a word the kind of an identifier or one of its own kinds. -/
theorem KeywordTable.kindOf_cases (table : KeywordTable) (word : String) :
    table.kindOf word = .identifier ∨ table.kindOf word ∈ table.map Prod.snd := by
  unfold KeywordTable.kindOf
  induction table with
  | nil => exact .inl rfl
  | cons entry others ih =>
    rw [List.lookup_cons]
    split
    · exact .inr List.mem_cons_self
    · rcases ih with free | reserved
      · exact .inl free
      · exact .inr (List.mem_cons_of_mem _ reserved)

/-- The kinds of names, literals and line ends. -/
def freeKinds : List TokenKind := [.identifier, .numberLit, .stringLit, .patternLit, .newline]

/-- No symbol is of a kind that is neither reserved for a word nor that of a mark nor one of the
kinds of names, literals and line ends. -/
theorem Symbol.kind_ne {kind : TokenKind} (unreserved : kind ∉ keywords.map Prod.snd)
    (unmarked : markChars kind = []) (other : kind ∉ freeKinds) (symbol : Symbol keywords) :
    symbol.kind ≠ kind := by
  rintro rfl
  cases symbol with
  | word kind text _ assigned =>
    rcases keywords.kindOf_cases text with free | reserved
    · rw [assigned] at free
      exact other (by rw [Symbol.kind, free]; decide)
    · rw [assigned] at reserved
      exact unreserved reserved
  | mark kind isMark => exact isMark unmarked
  | _ => exact other (by simp [Symbol.kind, freeKinds])

/-- Tokens that say symbols are of none of these kinds. -/
theorem Says.kind_ne {kind : TokenKind} (unreserved : kind ∉ keywords.map Prod.snd)
    (unmarked : markChars kind = []) (other : kind ∉ freeKinds) {tokens : List Token}
    {symbols : List (Symbol keywords)} (told : Says tokens symbols) :
    ∀ token ∈ tokens, token.kind ≠ kind := by
  induction told with
  | nil => exact fun _ member => absurd member List.not_mem_nil
  | cons head _ ih =>
    intro token member
    rcases List.mem_cons.mp member with rfl | further
    · rw [head.kind]
      exact Symbol.kind_ne unreserved unmarked other _
    · exact ih token further

end DocGrammar
