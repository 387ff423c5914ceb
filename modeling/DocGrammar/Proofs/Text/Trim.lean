import DocGrammar.Text.Trim
import Mathlib.Data.List.TakeWhile

/-! # What trimming leaves

A text is what is left of it when it is trimmed, with white space around it. What is left neither
starts nor ends with white space.

* **`dropTailWhile_append_cons`** — a character that stays keeps what stands before it.
* **`exists_trim`** — a text as what is left of it with white space around it.
* **`ends_of_trim`**, **`trim_of_ends`** — a text is trimmed if it does not start or end with white
  space. -/

namespace DocGrammar

variable {drops : Char → Bool} {text front behind others : List Char} {char first last : Char}

/-! ## Dropping from the end -/

/-- Nothing is dropped before a character that stays. -/
theorem dropTailWhile_append_cons (front : List Char) (stays : drops char = false) :
    dropTailWhile drops (front ++ char :: behind) =
      front ++ char :: dropTailWhile drops behind := by
  induction front with
  | nil =>
    rw [List.nil_append, List.nil_append, dropTailWhile]
    cases kept : dropTailWhile drops behind with
    | nil => simp [stays]
    | cons first others => rfl
  | cons first front ih =>
    rw [List.cons_append, dropTailWhile, ih]
    cases front <;> rfl

/-- Nothing is dropped from the end of a text whose last character stays. -/
theorem dropTailWhile_of_last (front : List Char) (stays : drops last = false) :
    dropTailWhile drops (front ++ [last]) = front ++ [last] :=
  dropTailWhile_append_cons front stays

/-- A tail whose characters are all dropped is dropped altogether. -/
theorem dropTailWhile_append_dropped (dropped : ∀ char ∈ behind, drops char = true) :
    dropTailWhile drops (text ++ behind) = dropTailWhile drops text := by
  induction text with
  | nil =>
    induction behind with
    | nil => rfl
    | cons char behind ih =>
      obtain ⟨here, dropped⟩ := List.forall_mem_cons.mp dropped
      have nothing : dropTailWhile drops behind = [] := ih dropped
      simp [dropTailWhile, nothing, here]
  | cons char text ih => rw [List.cons_append, dropTailWhile, dropTailWhile, ih]

/-- What is left when the end is dropped does not end with what is dropped. -/
theorem exists_last_dropTailWhile (drops : Char → Bool) {chars : List Char}
    (nonempty : dropTailWhile drops chars ≠ []) :
    ∃ front last, dropTailWhile drops chars = front ++ [last] ∧ drops last = false := by
  induction chars with
  | nil => exact absurd rfl nonempty
  | cons char chars ih =>
    cases kept : dropTailWhile drops chars with
    | nil =>
      rw [dropTailWhile, kept] at nonempty ⊢
      by_cases dropped : drops char = true
      · exact absurd (if_pos dropped) nonempty
      · refine ⟨[], char, if_neg dropped, ?_⟩
        rwa [Bool.not_eq_true] at dropped
    | cons first others =>
      obtain ⟨front, last, whole, stays⟩ := ih (by rw [kept]; exact List.cons_ne_nil _ _)
      refine ⟨char :: front, last, ?_, stays⟩
      rw [List.cons_append, ← whole, dropTailWhile, kept]

/-! ## Trimming -/

/-- A text is what is left when it is trimmed, with white space before and behind it. -/
theorem exists_trim (text : List Char) :
    ∃ tail, (∀ char ∈ tail, isBlank char = true) ∧
      text = text.takeWhile isBlank ++ (trim text ++ tail) := by
  obtain ⟨tail, split, white⟩ := dropTailWhile_append isBlank (text.dropWhile isBlank)
  refine ⟨tail, white, ?_⟩
  rw [trim, trimWhile, ← split, List.takeWhile_append_dropWhile]

/-- Trimming leaves a piece of the text. -/
theorem trim_isInfix (text : List Char) : trim text <:+: text := by
  obtain ⟨tail, _, split⟩ := exists_trim text
  exact ⟨text.takeWhile isBlank, tail, by rw [List.append_assoc]; exact split.symm⟩

/-- What is left of a text does not start with white space. -/
theorem isBlank_of_trim_eq_cons (left : trim text = first :: others) : isBlank first = false := by
  cases shape : text.dropWhile isBlank with
  | nil =>
    rw [trim, trimWhile, shape] at left
    cases left
  | cons char rest =>
    have stays := List.head?_dropWhile_not isBlank text
    rw [shape] at stays
    have visible : isBlank char = false := by simpa using stays
    have kept : dropTailWhile isBlank (char :: rest) = char :: dropTailWhile isBlank rest :=
      dropTailWhile_append_cons [] visible
    rw [trim, trimWhile, shape, kept] at left
    rw [← (List.cons.inj left).1]
    exact visible

/-- What is left of a text does not end with white space. -/
theorem exists_last_of_trim (filled : trim text ≠ []) :
    ∃ front last, trim text = front ++ [last] ∧ isBlank last = false :=
  exists_last_dropTailWhile isBlank filled

/-- Something is left of a text that is not blank. -/
theorem trim_ne_nil (visible : text.all isBlank = false) : trim text ≠ [] := by
  intro nothing
  obtain ⟨tail, white, split⟩ := exists_trim text
  rw [nothing, List.nil_append] at split
  have blank : text.all isBlank = true := by
    rw [List.all_eq_true, split]
    intro char member
    rcases List.mem_append.mp member with leading | trailing
    · exact List.mem_takeWhile_imp leading
    · exact white char trailing
  rw [visible] at blank
  cases blank

/-- Only the end of a text is kept apart from what is left of it. -/
theorem trimEnd_eq_append_trim (filled : trim text ≠ []) :
    trimEnd text = text.takeWhile isBlank ++ trim text := by
  obtain ⟨tail, white, split⟩ := exists_trim text
  obtain ⟨front, last, left, visible⟩ := exists_last_of_trim filled
  have ends : text = (text.takeWhile isBlank ++ trim text) ++ tail := by
    rw [List.append_assoc]
    exact split
  calc trimEnd text = trimEnd ((text.takeWhile isBlank ++ trim text) ++ tail) :=
        congrArg trimEnd ends
    _ = trimEnd ((text.takeWhile isBlank ++ front) ++ [last]) := by
        rw [left, ← List.append_assoc]
        exact dropTailWhile_append_dropped white
    _ = text.takeWhile isBlank ++ trim text := by
        rw [left, ← List.append_assoc]
        exact dropTailWhile_of_last _ visible

/-- White space behind a text is trimmed altogether. -/
theorem trim_append_blanks (white : ∀ char ∈ behind, isBlank char = true) :
    trim (text ++ behind) = trim text := by
  rw [trim, trimWhile, List.dropWhile_append]
  split
  · next none =>
    have nothing : behind.dropWhile isBlank = [] := List.dropWhile_eq_nil_iff.mpr white
    rw [trim, trimWhile, nothing, List.isEmpty_iff.mp none]
  · exact dropTailWhile_append_dropped white

/-- A text that neither starts nor ends with white space is trimmed already. -/
theorem trim_of_ends (starts : text = first :: others) (plain : isBlank first = false)
    (ends : text = front ++ [last]) (stays : isBlank last = false) : trim text = text := by
  have leading : text.dropWhile isBlank = text := by
    rw [starts, List.dropWhile_cons_of_neg (by rw [plain]; exact Bool.false_ne_true)]
  rw [trim, trimWhile, leading, ends]
  exact dropTailWhile_of_last front stays

/-- A trimmed text neither starts nor ends with white space. -/
theorem ends_of_trim (nonempty : text ≠ []) (trimmed : trim text = text) :
    (∃ first others, text = first :: others ∧ isBlank first = false) ∧
      ∃ front last, text = front ++ [last] ∧ isBlank last = false := by
  constructor
  · obtain ⟨first, others, rfl⟩ := List.exists_cons_of_ne_nil nonempty
    exact ⟨first, others, rfl, isBlank_of_trim_eq_cons trimmed⟩
  · rw [← trimmed] at nonempty
    obtain ⟨front, last, whole, stays⟩ := exists_last_of_trim nonempty
    exact ⟨front, last, trimmed.symm.trans whole, stays⟩

/-- A text that does not end with white space keeps its end when it is trimmed. -/
theorem trim_concat (front : List Char) (visible : isBlank last = false) :
    front ++ [last] = (front ++ [last]).takeWhile isBlank ++ trim (front ++ [last]) := by
  obtain ⟨tail, white, whole⟩ := exists_trim (front ++ [last])
  cases tail with
  | nil => rwa [List.append_nil] at whole
  | cons char tail =>
    -- the last character of the text would be white space
    have member : last ∈ char :: tail := by
      have ends := congrArg List.getLast? whole
      rw [List.getLast?_concat, ← List.append_assoc, List.getLast?_append, List.getLast?_cons,
        Option.some_or] at ends
      exact List.mem_of_getLast? (by rw [List.getLast?_cons]; exact ends.symm)
    rw [white last member] at visible
    cases visible

end DocGrammar
