import DocGrammar.Proofs.Tokens.Phrase

/-! # Symbols on a line of a document

A document is cut into lines before code is read in it. A line holds no forbidden character, and
the white space around it is lost. Symbols that are laid out on a line get through unharmed: those
that hold no forbidden character are spelled without one, and no symbol ends with white space.

* **`isCleanText`** — whether a text holds no forbidden character.
* **`isCleanText_layout`** — clean symbols are laid out as clean text.
* **`exists_last_layout`** — laid out text does not end with white space.
* **`IsWritable`** — rows of symbols that are read back from a line. -/

namespace DocGrammar

variable {keywords : KeywordTable}

/-- Whether a text holds no character that is forbidden in a document. -/
def isCleanText (chars : List Char) : Bool := chars.all (!isForbidden ·)

@[simp] theorem isCleanText_nil : isCleanText [] = true := rfl

@[simp] theorem isCleanText_cons (char : Char) (others : List Char) :
    isCleanText (char :: others) = (!isForbidden char && isCleanText others) := List.all_cons

@[simp] theorem isCleanText_append (chars others : List Char) :
    isCleanText (chars ++ others) = (isCleanText chars && isCleanText others) := List.all_append

theorem isCleanText_iff (chars : List Char) :
    isCleanText chars = true ↔ ∀ char ∈ chars, isForbidden char = false := by
  rw [isCleanText, List.all_eq_true]
  simp only [Bool.not_eq_true']

/-- A text of some characters without white space among them does not end with white space. -/
theorem exists_last_of_plain {chars : List Char} (nonempty : chars ≠ [])
    (plain : ∀ char ∈ chars, isBlank char = false) :
    ∃ front last, chars = front ++ [last] ∧ isBlank last = false :=
  ⟨chars.dropLast, chars.getLast nonempty, (List.dropLast_concat_getLast nonempty).symm,
    plain _ (List.getLast_mem nonempty)⟩

/-! ## The characters of symbols -/

/-- The characters of marks are neither white space nor forbidden. -/
theorem plain_markChars (kind : TokenKind) :
    ∀ char ∈ markChars kind, isBlank char = false ∧ isForbidden char = false := by
  have every : (markChars kind).all (fun char => !isBlank char && !isForbidden char) = true := by
    cases kind <;> decide
  intro char member
  have plain := List.all_eq_true.mp every char member
  simp only [Bool.and_eq_true, Bool.not_eq_true'] at plain
  exact plain

/-- A string is spelled without forbidden characters if escapes stand for those that it holds. -/
theorem isCleanText_spelledBody {content : List Char}
    (escaped : ∀ char ∈ content, isForbidden char = true → char = '\n' ∨ char = Char.ofNat 0) :
    isCleanText (spelledBody content) = true := by
  rw [isCleanText_iff]
  intro char member
  rcases List.mem_append.mp member with inside | closing
  · obtain ⟨spelled, inContent, found⟩ := List.mem_flatMap.mp inside
    by_cases forbidden : isForbidden spelled = true
    · have clean : isCleanText (spelledChar spelled) = true := by
        rcases escaped spelled inContent forbidden with rfl | rfl <;> decide
      exact (isCleanText_iff _).mp clean char found
    · unfold spelledChar at found
      have quiet : isForbidden spelled = false := Bool.eq_false_iff.mpr forbidden
      repeat' split at found
      all_goals
        simp only [List.mem_cons, List.not_mem_nil, or_false] at found
        rcases found with rfl | rfl <;> first | decide | exact quiet
  · rw [List.mem_singleton.mp closing]
    decide

namespace Symbol

/-- Whether a symbol is spelled without forbidden characters. -/
def isClean (symbol : Symbol keywords) : Bool := isCleanText symbol.chars

theorem isClean_word (kind : TokenKind) (text : String) (word : isWord text.toList = true)
    (assigned : keywords.kindOf text = kind) :
    (Symbol.word kind text word assigned).isClean = true :=
  (isCleanText_iff _).mpr fun _ member =>
    isForbidden_of_isWordChar (isWordChar_of_isWord word _ member)

theorem isClean_number (numeral : Numeral) :
    (.number numeral : Symbol keywords).isClean = true := by
  refine (isCleanText_iff _).mpr fun char member => ?_
  rcases Numeral.mem_chars member with digit | rfl
  · exact isForbidden_of_isWordChar (isWordChar_of_isDigit digit)
  · decide

theorem isClean_mark (kind : TokenKind) (isMark : markChars kind ≠ []) :
    (.mark kind isMark : Symbol keywords).isClean = true :=
  (isCleanText_iff _).mpr fun char member => (plain_markChars kind char member).2

/-- Words and marks are clean. -/
theorem isClean_of_noLiteral {symbol : Symbol keywords} (noLiteral : symbol.isLiteral = false) :
    symbol.isClean = true := by
  cases symbol with
  | word kind text word assigned => exact isClean_word kind text word assigned
  | mark kind isMark => exact isClean_mark kind isMark
  | _ => exact Bool.noConfusion noLiteral

/-- A line end is not clean. -/
theorem isFeed_of_isClean {symbol : Symbol keywords} (clean : symbol.isClean = true) :
    symbol.isFeed = false := by
  cases symbol with
  | newline => exact Bool.noConfusion clean
  | _ => rfl

/-- Every symbol ends before the end of the text. -/
theorem stops_nil (symbol : Symbol keywords) : symbol.stops [] = true := by
  cases symbol with
  | mark kind => exact markStops_nil _
  | string content => simp [stops]
  | _ => rfl

/-- No symbol but a line end ends with white space. -/
theorem exists_last {symbol : Symbol keywords} (noFeed : symbol.isFeed = false) :
    ∃ front last, symbol.chars = front ++ [last] ∧ isBlank last = false := by
  cases symbol with
  | word kind text word =>
    refine exists_last_of_plain ?_ fun char member =>
      isBlank_of_isWordChar (isWordChar_of_isWord word char member)
    intro empty
    rw [show text.toList = [] from empty] at word
    exact Bool.false_ne_true word
  | number numeral =>
    refine exists_last_of_plain numeral.chars_ne_nil fun char member => ?_
    rcases Numeral.mem_chars member with digit | rfl
    · exact isBlank_of_isWordChar (isWordChar_of_isDigit digit)
    · decide
  | string content =>
    exact ⟨'"' :: content.toList.flatMap spelledChar, '"', rfl, by decide⟩
  | pattern content => exact ⟨'/' :: content.text.toList, '/', rfl, by decide⟩
  | mark kind isMark =>
    exact exists_last_of_plain isMark fun char member => (plain_markChars kind char member).1
  | newline => exact Bool.noConfusion noFeed

end Symbol

/-! ## Laid out text -/

/-- Gaps hold no forbidden characters. -/
theorem isCleanText_gap (gap : Gap) : isCleanText gap.val = true := by
  refine (isCleanText_iff _).mpr fun char member => ?_
  have space := List.all_eq_true.mp gap.property char member
  simp only [isCodeSpace, Bool.or_eq_true, decide_eq_true_eq] at space
  rcases space with (rfl | rfl) | rfl <;> decide

/-- What is laid out behind a symbol stands at the end of the text. -/
theorem Symbol.exists_before (symbol : Symbol keywords) (tail : List Char) :
    ∃ spaces, symbol.before tail = symbol.chars ++ (spaces ++ tail) ∧ isCleanText spaces = true ∧
      (tail = [] → spaces = []) := by
  unfold Symbol.before
  by_cases apart : symbol.stops tail = true
  · exact ⟨[], by rw [if_pos apart]; rfl, rfl, fun _ => rfl⟩
  · refine ⟨[' '], by rw [if_neg apart]; rfl, by decide, ?_⟩
    rintro rfl
    exact absurd symbol.stops_nil apart

/-- Clean symbols are laid out as clean text. -/
theorem isCleanText_layout {symbols : List (Symbol keywords)} (gaps : Nat → Gap)
    (clean : ∀ symbol ∈ symbols, symbol.isClean = true) :
    isCleanText (layout gaps symbols) = true := by
  induction symbols generalizing gaps with
  | nil => exact isCleanText_gap (gaps 0)
  | cons symbol others ih =>
    obtain ⟨spaces, whole, cleanSpaces, _⟩ :=
      symbol.exists_before (layout (fun place => gaps (place + 1)) others)
    have here : isCleanText symbol.chars = true := clean symbol List.mem_cons_self
    have rest := ih (fun place => gaps (place + 1)) fun other member =>
      clean other (List.mem_cons_of_mem _ member)
    rw [layout, whole]
    simp only [isCleanText_append, isCleanText_gap, here, cleanSpaces, rest, Bool.and_self]

/-- Without a gap at its end, laid out text does not end with white space. -/
theorem exists_last_layout {symbols : List (Symbol keywords)} (gaps : Nat → Gap)
    (nonempty : symbols ≠ []) (noFeed : ∀ symbol ∈ symbols, symbol.isFeed = false)
    (tight : (gaps symbols.length).val = []) :
    ∃ front last, layout gaps symbols = front ++ [last] ∧ isBlank last = false := by
  induction symbols generalizing gaps with
  | nil => exact absurd rfl nonempty
  | cons symbol others ih =>
    obtain ⟨spaces, whole, _, closed⟩ :=
      symbol.exists_before (layout (fun place => gaps (place + 1)) others)
    rw [layout, whole]
    -- the last symbol has only its gap behind it, which is empty
    by_cases isLast : others = []
    · subst isLast
      have empty : layout (fun place => gaps (place + 1)) ([] : List (Symbol keywords)) = [] :=
        tight
      obtain ⟨front, last, chars, plain⟩ := Symbol.exists_last (noFeed symbol List.mem_cons_self)
      refine ⟨(gaps 0).val ++ front, last, ?_, plain⟩
      rw [closed empty, empty, List.append_nil, List.append_nil, chars, List.append_assoc]
    · obtain ⟨front, last, text, plain⟩ := ih (fun place => gaps (place + 1)) isLast
        (fun other member => noFeed other (List.mem_cons_of_mem _ member)) tight
      refine ⟨(gaps 0).val ++ (symbol.chars ++ (spaces ++ front)), last, ?_, plain⟩
      rw [text]
      simp only [List.append_assoc]

/-! ## Writable rows -/

/-- Whether some symbols can be written on a line of a document and be read back wherever they
stand there. -/
structure IsWritable (symbols : List (Symbol keywords)) : Prop where
  /-- They are clean. -/
  clean : ∀ symbol ∈ symbols, symbol.isClean = true
  /-- They can be read. -/
  fits : ∀ state : CodeState, state.Fits symbols

variable {symbols others : List (Symbol keywords)} {symbol : Symbol keywords}

theorem isWritable_nil : IsWritable ([] : List (Symbol keywords)) :=
  ⟨fun _ member => absurd member List.not_mem_nil, fun _ => trivial⟩

theorem IsWritable.append (first : IsWritable symbols) (second : IsWritable others) :
    IsWritable (symbols ++ others) := by
  refine ⟨List.forall_mem_append.mpr ⟨first.clean, second.clean⟩, fun state => ?_⟩
  exact (CodeState.fits_append _ _ _).mpr ⟨first.fits state, second.fits _⟩

/-- A clean symbol that is neither a slash nor a pattern can stand before what can be written. -/
theorem IsWritable.cons (inner : IsWritable symbols) (clean : symbol.isClean = true)
    (slash : symbol.kind ≠ .slash) (pattern : symbol.kind ≠ .patternLit) :
    IsWritable (symbol :: symbols) := by
  refine ⟨fun other member => ?_, fun state => ⟨⟨?_, ?_⟩, inner.fits _⟩⟩
  · rcases List.mem_cons.mp member with rfl | further
    · exact clean
    · exact inner.clean other further
  · exact fun same => absurd same slash
  · exact fun same => absurd same pattern

theorem IsWritable.mark {kind : TokenKind} {isMark : markChars kind ≠ []}
    (inner : IsWritable symbols) (slash : kind ≠ .slash) :
    IsWritable (.mark kind isMark :: symbols) := by
  refine inner.cons (Symbol.isClean_mark kind isMark) slash ?_
  rintro rfl
  exact isMark rfl

theorem IsWritable.name (inner : IsWritable symbols) (word : Identifier keywords) :
    IsWritable (.name word :: symbols) :=
  inner.cons (Symbol.isClean_word _ _ _ _) TokenKind.noConfusion TokenKind.noConfusion

theorem IsWritable.noFeed (writable : IsWritable symbols) :
    ∀ symbol ∈ symbols, symbol.isFeed = false :=
  fun symbol member => Symbol.isFeed_of_isClean (writable.clean symbol member)

/-- What can be written can be written behind commas. -/
theorem isWritable_flatMap {items : List (List (Symbol keywords))}
    (writable : ∀ item ∈ items, IsWritable item) :
    IsWritable (items.flatMap fun item => Symbol.comma :: item) := by
  induction items with
  | nil => exact isWritable_nil
  | cons next others ih =>
    rw [List.flatMap_cons]
    have first : IsWritable (Symbol.comma :: next) :=
      (writable next List.mem_cons_self).mark TokenKind.noConfusion
    exact first.append (ih fun item member => writable item (List.mem_cons_of_mem _ member))

/-- What can be written can be written with commas between. -/
theorem isWritable_separated {items : List (List (Symbol keywords))}
    (writable : ∀ item ∈ items, IsWritable item) : IsWritable (separated .comma items) := by
  cases items with
  | nil => exact isWritable_nil
  | cons first others =>
    exact (writable first List.mem_cons_self).append
      (isWritable_flatMap fun item member => writable item (List.mem_cons_of_mem _ member))

end DocGrammar
