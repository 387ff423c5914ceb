import DocGrammar.Text.Literal

/-! # Literals are read back

Writing a literal escapes what would end it or what cannot stand in it, so its closing quote is
found, and reading undoes the escapes.

* **`Literal.content`** — what stands between the quotes of a literal.
* **`Literal.decode?_content`** — a text is read back from the content of its literal.
* **`Literal.decode?_content_eq_none`** — a text with other control characters is not. -/

namespace DocGrammar

namespace Literal

/-- The characters between the quotes of the literal of a text. -/
def content (chars : List Char) : List Char := chars.flatMap encodeChar

theorem toList_encode (text : String) :
    (encode text).toList = '"' :: content text.toList ++ ['"'] := String.toList_ofList

/-- Whether a literal can hold a character: control characters other than the line feed and the tab
have no escape of their own. -/
def isWritable (char : Char) : Bool :=
  ' ' ≤ char || char = '\n' || char = '\t'

/-- A character is written as an escape, or as it is. -/
theorem encodeChar_cases (char : Char) :
    (∃ letter, letter ≠ 'u' ∧ encodeChar char = ['\\', letter] ∧ letter ≠ '\n' ∧
      simpleEscape? letter = some char) ∨
    (encodeChar char = [char] ∧ char ≠ '\\' ∧ char ≠ '"' ∧ char ≠ '\n' ∧ char ≠ '\t') := by
  unfold encodeChar
  by_cases backslash : char = '\\'
  · subst backslash
    exact .inl ⟨'\\', by decide⟩
  by_cases quote : char = '"'
  · subst quote
    exact .inl ⟨'"', by decide⟩
  by_cases feed : char = '\n'
  · subst feed
    exact .inl ⟨'n', by decide⟩
  by_cases tab : char = '\t'
  · subst tab
    exact .inl ⟨'t', by decide⟩
  exact .inr ⟨by rw [if_neg backslash, if_neg quote, if_neg feed, if_neg tab], backslash, quote,
    feed, tab⟩

/-! ## Reading -/

/-- A plain character becomes its code point. -/
theorem units?_cons {char : Char} {rest : List Char} (printable : ' ' ≤ char)
    (plain : char ≠ '\\') : units? (char :: rest) = (units? rest).map (char.toNat :: ·) := by
  have fits : ¬(decide (char < ' ') || decide (char = '\\')) = true := by
    simpa [plain] using printable
  rw [units?]
  · rw [if_neg fits]
    cases units? rest <;> rfl
  · rintro a b c d others rfl
    exact absurd rfl plain
  · rintro letter others rfl
    exact absurd rfl plain

/-- A simple escape becomes the code point of the character that it stands for. -/
theorem units?_escape {letter char : Char} {rest : List Char} (simple : letter ≠ 'u')
    (escapes : simpleEscape? letter = some char) :
    units? ('\\' :: letter :: rest) = (units? rest).map (char.toNat :: ·) := by
  rw [units?]
  · rw [escapes]
    cases units? rest <;> rfl
  · rintro a b c d others rfl
    exact absurd rfl simple

/-- The content of a literal is read as the code points of its text. -/
theorem units?_content {chars : List Char} (writable : ∀ char ∈ chars, isWritable char = true) :
    units? (content chars) = some (chars.map Char.toNat) := by
  induction chars with
  | nil => rfl
  | cons char chars ih =>
    obtain ⟨here, below⟩ := List.forall_mem_cons.mp writable
    rw [content, List.flatMap_cons, ← content]
    rcases encodeChar_cases char with ⟨letter, simple, spelled, _, escapes⟩ |
      ⟨spelled, backslash, _, feed, tab⟩
    · rw [spelled, List.cons_append, List.cons_append, List.nil_append,
        units?_escape simple escapes, ih below]
      rfl
    · have printable : ' ' ≤ char := by simpa [isWritable, feed, tab] using here
      rw [spelled, List.singleton_append, units?_cons printable backslash, ih below]
      rfl

/-- Nothing is read behind a bare control character. -/
theorem units?_control {char : Char} (control : ¬ ' ' ≤ char) (rest : List Char) :
    units? (char :: rest) = none := by
  have plain : char ≠ '\\' := by
    rintro rfl
    exact control (by decide)
  rw [units?]
  · rw [if_pos (by simpa [plain] using control)]
  · rintro a b c d others rfl
    exact absurd rfl plain
  · rintro letter others rfl
    exact absurd rfl plain

/-- A character that literals cannot hold is written as it is. -/
theorem encodeChar_of_not_writable {char : Char} (control : isWritable char = false) :
    encodeChar char = [char] ∧ ¬ ' ' ≤ char := by
  simp only [isWritable, Bool.or_eq_false_iff, decide_eq_false_iff_not] at control
  obtain ⟨⟨control, feed⟩, tab⟩ := control
  have other : ∀ own, ' ' ≤ own → char ≠ own := by
    rintro own printable rfl
    exact control printable
  refine ⟨?_, control⟩
  rw [encodeChar, if_neg (other _ (by decide)), if_neg (other _ (by decide)), if_neg feed,
    if_neg tab]

/-- The content of a literal is not read if the text holds a character that literals cannot. -/
theorem units?_content_eq_none {chars : List Char}
    (control : ∃ char ∈ chars, isWritable char = false) : units? (content chars) = none := by
  induction chars with
  | nil => simp at control
  | cons char chars ih =>
    rw [content, List.flatMap_cons, ← content]
    cases here : isWritable char with
    | false =>
      obtain ⟨spelled, control⟩ := encodeChar_of_not_writable here
      rw [spelled, List.singleton_append, units?_control control]
    | true =>
      have below : ∃ char ∈ chars, isWritable char = false := by simpa [here] using control
      rcases encodeChar_cases char with ⟨letter, simple, spelled, _, escapes⟩ |
        ⟨spelled, backslash, _, feed, tab⟩
      · rw [spelled, List.cons_append, List.cons_append, List.nil_append,
          units?_escape simple escapes, ih below]
        rfl
      · have printable : ' ' ≤ char := by simpa [isWritable, feed, tab] using here
        rw [spelled, List.singleton_append, units?_cons printable backslash, ih below]
        rfl

/-- No character is half of a surrogate pair. -/
theorem not_surrogate_toNat (char : Char) :
    isHighSurrogate char.toNat = false ∧ isLowSurrogate char.toNat = false := by
  have range : char.toNat < 0xd800 ∨ 0xdfff < char.toNat := char.valid.imp id And.left
  simp only [isHighSurrogate, isLowSurrogate, Bool.and_eq_false_iff, decide_eq_false_iff_not]
  omega

theorem unitChar_toNat (char : Char) : unitChar char.toNat = char := by
  obtain ⟨high, low⟩ := not_surrogate_toNat char
  rw [unitChar, high, low]
  exact Char.ofNat_toNat char

/-- The code points of some characters are joined to these characters. -/
theorem joinUnits_map_toNat (chars : List Char) : joinUnits (chars.map Char.toNat) = chars := by
  induction chars with
  | nil => rfl
  | cons char chars ih =>
    cases chars with
    | nil => exact congrArg (· :: []) (unitChar_toNat char)
    | cons next chars =>
      rw [List.map_cons] at ih
      rw [List.map_cons, List.map_cons, joinUnits, (not_surrogate_toNat char).1, Bool.false_and,
        if_neg Bool.false_ne_true, ih, unitChar_toNat]

/-- A text that literals can hold is read back from the content of its literal. -/
theorem decode?_content {text : String}
    (writable : ∀ char ∈ text.toList, isWritable char = true) :
    decode? (content text.toList) = some text := by
  rw [decode?, units?_content writable, Option.map_some, joinUnits_map_toNat, String.ofList_toList]

/-- A text that literals cannot hold is not read. -/
theorem decode?_content_eq_none {text : String}
    (control : ∃ char ∈ text.toList, isWritable char = false) :
    decode? (content text.toList) = none := by
  rw [decode?, units?_content_eq_none control, Option.map_none]

end Literal

end DocGrammar
