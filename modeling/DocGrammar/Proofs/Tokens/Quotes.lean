import DocGrammar.Proofs.Text.Readings
import DocGrammar.Token.Lexeme

/-! # Quoted strings

Between the marks of a string, an escape says the character that it stands for, and every other
character says itself. Between triple quotes there are no escapes, and the string ends with the
first three quotes in a row. Both kinds of strings are read exactly where they are written so.

* **`Unescapes`** — what stands between the marks of a string, and what it says.
* **`Lexeme.stringBody_of_unescapes`**, **`Lexeme.exists_of_stringBody`** — the body of a string is
  what stands up to its closing mark.
* **`IsTripleBody`** — what can stand between triple quotes.
* **`Lexeme.tripleContent?_append`**, **`Lexeme.exists_of_tripleContent?`** — the content of a
  string between triple quotes is what stands up to the first three in a row. -/

namespace DocGrammar

/-! ## Between two marks -/

/-- What stands between two marks, and what it says. -/
inductive Unescapes (mark : Char) : List Char → List Char → Prop where
  /-- Nothing says nothing. -/
  | nil : Unescapes mark [] []
  /-- An escape says the character that it stands for. -/
  | escape {letter char : Char} {body content : List Char}
      (known : Lexeme.escape? letter = some char) (behind : Unescapes mark body content) :
      Unescapes mark ('\\' :: letter :: body) (char :: content)
  /-- Any other character of the line says itself. -/
  | plain {char : Char} {body content : List Char} (noEscape : char ≠ '\\') (inside : char ≠ mark)
      (inLine : char ≠ '\n') (behind : Unescapes mark body content) :
      Unescapes mark (char :: body) (char :: content)

namespace Unescapes

variable {mark : Char} {body content more others : List Char}

theorem append (first : Unescapes mark body content) (second : Unescapes mark more others) :
    Unescapes mark (body ++ more) (content ++ others) := by
  induction first with
  | nil => exact second
  | escape known _ ih => exact .escape known ih
  | plain noEscape inside inLine _ ih => exact .plain noEscape inside inLine ih

/-- Characters that are written one by one say what each of them does. -/
theorem flatMap {write : Char → List Char} (chars : List Char)
    (each : ∀ char, Unescapes mark (write char) [char]) :
    Unescapes mark (chars.flatMap write) chars := by
  induction chars with
  | nil => exact .nil
  | cons char chars ih =>
    rw [List.flatMap_cons]
    exact (each char).append ih

/-- What stands between marks does not start with one. -/
theorem head?_ne (unescapes : Unescapes mark body content) (plain : mark ≠ '\\') :
    body.head? ≠ some mark := by
  cases unescapes with
  | nil => simp
  | escape => exact fun same => plain (Option.some.inj same).symm
  | plain _ inside _ _ => exact fun same => inside (Option.some.inj same)

end Unescapes

namespace Lexeme

variable {mark : Char} {rest body content : List Char} {taken width : Nat}

/-- What stands up to the closing mark is read as what it says. -/
theorem stringBody_of_unescapes (unescapes : Unescapes mark body content) (plain : mark ≠ '\\')
    (taken : Nat) (tail : List Char) :
    stringBody mark taken (body ++ mark :: tail) = .ok (content, taken + body.length + 1) := by
  induction unescapes generalizing taken with
  | nil =>
    rw [List.nil_append, stringBody, if_pos rfl]
    · rfl
    · exact fun same => plain same
  | escape known _ ih =>
    rw [List.cons_append, List.cons_append, stringBody, known]
    simp only [ih]
    show Except.ok _ = Except.ok _
    simp only [List.length_cons, Except.ok.injEq, Prod.mk.injEq, true_and]
    omega
  | plain noEscape inside inLine _ ih =>
    rw [List.cons_append, stringBody, if_neg inside, if_neg inLine, ih]
    · show Except.ok _ = Except.ok _
      simp only [List.length_cons, Except.ok.injEq, Prod.mk.injEq, true_and]
      omega
    · exact noEscape

/-- The body of a string ends with its mark. -/
theorem exists_of_stringBody (reads : stringBody mark taken rest = .ok (content, width)) :
    ∃ body tail, rest = body ++ mark :: tail ∧ width = taken + body.length + 1 ∧
      Unescapes mark body content := by
  -- behind an escape, at the closing mark, and behind any other character of the line
  fun_induction stringBody mark taken rest generalizing content width with
  | case1 => cases reads
  | case2 => cases reads
  | case3 => cases reads
  | case4 taken letter others char known ih =>
    obtain ⟨⟨content, width⟩, inner, whole⟩ := exists_of_bind_ok reads
    cases whole
    obtain ⟨body, tail, rfl, rfl, unescapes⟩ := ih inner
    refine ⟨'\\' :: letter :: body, tail, rfl, ?_, .escape known unescapes⟩
    simp only [List.length_cons]
    omega
  | case5 taken rest other =>
    cases reads
    exact ⟨[], rest, rfl, rfl, .nil⟩
  | case6 => cases reads
  | case7 taken char rest other differs inLine ih =>
    obtain ⟨⟨content, width⟩, inner, whole⟩ := exists_of_bind_ok reads
    cases whole
    obtain ⟨body, tail, rfl, rfl, unescapes⟩ := ih inner
    refine ⟨char :: body, tail, rfl, ?_, .plain other differs inLine unescapes⟩
    simp only [List.length_cons]
    omega

end Lexeme

/-! ## Between triple quotes -/

/-- Whether the first three quotes in a row that end a text are those behind it. -/
def IsTripleBody (content : List Char) : Prop := ¬['"', '"', '"'] <:+: content ++ ['"', '"']

theorem isTripleBody_nil : IsTripleBody [] := by
  unfold IsTripleBody
  decide

namespace Lexeme

variable {rest content : List Char}

/-- What stands up to the first three quotes is the content of the string. -/
theorem tripleContent?_append (inside : IsTripleBody content) (tail : List Char) :
    tripleContent? (content ++ '"' :: '"' :: '"' :: tail) = some content := by
  induction content with
  | nil => rfl
  | cons char content ih =>
    rw [IsTripleBody, List.cons_append, List.infix_cons_iff, not_or] at inside
    rw [List.cons_append, tripleContent?, ih inside.2]
    · rfl
    · -- three quotes that stand here would also stand before the last quote
      rintro more rfl shape
      refine inside.1 ?_
      have longer : (content ++ ['"', '"']) ++ '"' :: tail = ['"', '"'] ++ more := by
        rw [List.append_assoc]
        exact shape
      have short : ['"', '"'] <+: content ++ ['"', '"'] :=
        List.prefix_of_prefix_length_le ⟨more, longer.symm⟩ (List.prefix_append _ _) (by simp)
      exact (List.prefix_cons_inj '"').mpr short

/-- The content of a string between triple quotes ends with the first three quotes. -/
theorem exists_of_tripleContent? (reads : tripleContent? rest = some content) :
    ∃ tail, rest = content ++ '"' :: '"' :: '"' :: tail ∧ IsTripleBody content := by
  fun_induction tripleContent? rest generalizing content with
  | case1 => cases reads
  | case2 tail =>
    cases reads
    exact ⟨tail, rfl, isTripleBody_nil⟩
  | case3 char rest other ih =>
    obtain ⟨content, inner, rfl⟩ := Option.map_eq_some_iff.mp reads
    obtain ⟨tail, rfl, inside⟩ := ih inner
    refine ⟨tail, rfl, ?_⟩
    rw [IsTripleBody, List.cons_append, List.infix_cons_iff, not_or]
    refine ⟨fun early => ?_, inside⟩
    -- quotes that come earlier would have ended the content in the whole text
    obtain ⟨rfl, quotes⟩ := List.cons_prefix_cons.mp early
    obtain ⟨more, shape⟩ := quotes
    refine other (more ++ '"' :: tail) rfl ?_
    have longer := congrArg (· ++ '"' :: tail) shape
    simpa only [List.append_assoc, List.cons_append, List.nil_append] using longer.symm

end Lexeme

end DocGrammar
