import DocGrammar.Highlight.Pattern

/-! # What patterns read

A pattern that matches at a place reads some of the characters behind it, and the match goes on at
the place behind these. Whether it can match without reading anything, and whether it can read
anything at all, shows in its form.

* **`Place.Reads`** — the move of a place behind some characters.
* **`Pattern.consumes`**, **`Pattern.looks`** — patterns that always read something, and patterns
  that never do.
* **`Pattern.goesOn_run`** — what a match says about the place where it goes on. -/

namespace DocGrammar

/-! ## Places -/

namespace Place

/-- The place `later` stands behind the characters `read` of `place`. -/
def Reads (place : Place) (read : List Char) (later : Place) : Prop :=
  place.rest = read ++ later.rest

variable {place middle later : Place} {read more : List Char}

theorem reads_nil (place : Place) : place.Reads [] place := rfl

/-- Two moves make one. -/
theorem Reads.append (first : place.Reads read middle) (second : middle.Reads more later) :
    place.Reads (read ++ more) later := by
  rw [Reads, List.append_assoc, ← second]
  exact first

/-- The characters between two places are those read. -/
theorem Reads.between_eq (reads : place.Reads read later) : place.between later = read := by
  rw [between, reads, List.length_append, Nat.add_sub_cancel, List.take_left]

theorem Reads.length_eq (reads : place.Reads read later) :
    place.rest.length = read.length + later.rest.length := by
  rw [reads, List.length_append]

end Place

/-! ## Forms of patterns -/

namespace Pattern

variable {α : Type}

/-- Whether a pattern reads at least one character wherever it matches. -/
def consumes : Pattern → Bool
  | char _ => true
  | text chars => !chars.isEmpty
  | both first second => first.consumes || second.consumes
  | either first second => first.consumes && second.consumes
  | textStart | lineStart | lineEnd | wordBoundary | many _ | few _ | ahead _ => false

/-- Whether a pattern only looks at a place and reads nothing wherever it matches. -/
def looks : Pattern → Bool
  | textStart | lineStart | lineEnd | wordBoundary | ahead _ => true
  | text chars => chars.isEmpty
  | both first second | either first second => first.looks && second.looks
  | char _ | many _ | few _ => false

/-- What a match goes on with: a later place, behind characters that are as the form of the pattern
says. -/
def GoesOn (consumes looks : Bool) (place : Place) (continue? : Place → Option α) (result : α) :
    Prop :=
  ∃ read later, place.Reads read later ∧ continue? later = some result ∧
    (consumes = true → read ≠ []) ∧ (looks = true → read = [])

variable {place : Place} {continue? : Place → Option α} {result : α}

/-- A match that reads nothing goes on where it is. -/
theorem goesOn_here {looks : Bool} (goes : continue? place = some result) :
    GoesOn false looks place continue? result :=
  ⟨[], place, place.reads_nil, goes, fun no => absurd no Bool.false_ne_true, fun _ => rfl⟩

/-- One of two ways that are tried in order leads to the result. -/
theorem eq_some_of_orElse {first second : Option α} (found : (first <|> second) = some result) :
    first = some result ∨ second = some result := by
  cases first with
  | none => exact .inr found
  | some value => exact .inl found

/-! ## Texts and repetitions -/

theorem exists_reads_runText {chars : List Char}
    (matched : runText chars place continue? = some result) :
    ∃ later, place.Reads chars later ∧ continue? later = some result := by
  induction chars generalizing place with
  | nil => exact ⟨place, place.reads_nil, matched⟩
  | cons wanted more ih =>
    rw [runText] at matched
    cases text : place.rest with
    | nil => rw [text] at matched; cases matched
    | cons next rest =>
      rw [text] at matched
      obtain ⟨same, goes⟩ := Option.ite_none_right_eq_some.mp matched
      obtain ⟨later, reads, ends⟩ := ih goes
      refine ⟨later, ?_, ends⟩
      rw [Place.Reads, text, same, List.cons_append, ← reads]
      rfl

section

variable {once : Place → (Place → Option α) → Option α}
  (each : ∀ {place : Place} {continue? : Place → Option α},
    once place continue? = some result → ∃ read later, place.Reads read later ∧
      continue? later = some result)

include each

/-- A round that others may follow goes on with these. -/
theorem exists_reads_round {rounds : Place → Option α}
    (others : ∀ {place : Place}, rounds place = some result → ∃ read later,
      place.Reads read later ∧ continue? later = some result)
    (matched : (once place fun later =>
      if later.rest.length < place.rest.length then rounds later else none) = some result) :
    ∃ read later, place.Reads read later ∧ continue? later = some result := by
  obtain ⟨read, middle, reads, goes⟩ := each matched
  obtain ⟨more, later, further, ends⟩ := others (Option.ite_none_right_eq_some.mp goes).2
  exact ⟨read ++ more, later, reads.append further, ends⟩

theorem exists_reads_runMany {rounds : Nat}
    (matched : runMany once rounds place continue? = some result) :
    ∃ read later, place.Reads read later ∧ continue? later = some result := by
  induction rounds generalizing place with
  | zero => exact ⟨[], place, place.reads_nil, matched⟩
  | succ rounds ih =>
    rw [runMany] at matched
    rcases eq_some_of_orElse matched with round | stops
    · exact exists_reads_round each ih round
    · exact ⟨[], place, place.reads_nil, stops⟩

theorem exists_reads_runFew {rounds : Nat}
    (matched : runFew once rounds place continue? = some result) :
    ∃ read later, place.Reads read later ∧ continue? later = some result := by
  induction rounds generalizing place with
  | zero => exact ⟨[], place, place.reads_nil, matched⟩
  | succ rounds ih =>
    rw [runFew] at matched
    rcases eq_some_of_orElse matched with stops | round
    · exact ⟨[], place, place.reads_nil, stops⟩
    · exact exists_reads_round each ih round

end

/-! ## Patterns -/

/-- A match that reads or looks for certain does so if less is asked. -/
theorem GoesOn.mono {consumes looks fewer less : Bool}
    (goesOn : GoesOn consumes looks place continue? result)
    (consumed : fewer = true → consumes = true) (looked : less = true → looks = true) :
    GoesOn fewer less place continue? result := by
  obtain ⟨read, later, reads, goes, some, none⟩ := goesOn
  exact ⟨read, later, reads, goes, fun asked => some (consumed asked),
    fun asked => none (looked asked)⟩

/-- One match goes on with another. -/
theorem GoesOn.both {consumes looks consumes' looks' : Bool} {next? : Place → Option α}
    (first : GoesOn consumes looks place next? result)
    (second : ∀ {middle}, next? middle = some result →
      GoesOn consumes' looks' middle continue? result) :
    GoesOn (consumes || consumes') (looks && looks') place continue? result := by
  obtain ⟨read, middle, reads, goes, consumed, looked⟩ := first
  obtain ⟨more, later, further, ends, consumed', looked'⟩ := second goes
  refine ⟨read ++ more, later, reads.append further, ends, fun some => ?_, fun none => ?_⟩
  · rcases Bool.or_eq_true_iff.mp some with here | behind
    · exact List.append_ne_nil_of_left_ne_nil (consumed here) _
    · exact List.append_ne_nil_of_right_ne_nil _ (consumed' behind)
  · obtain ⟨here, behind⟩ := Bool.and_eq_true_iff.mp none
    rw [looked here, looked' behind, List.append_nil]

/-- A repetition reads some characters, perhaps none, and it need not look only. -/
theorem goesOn_of_reads
    (goesOn : ∃ read later, place.Reads read later ∧ continue? later = some result) :
    GoesOn false false place continue? result := by
  obtain ⟨read, later, reads, goes⟩ := goesOn
  exact ⟨read, later, reads, goes, nofun, nofun⟩

theorem GoesOn.exists_reads {consumes looks : Bool}
    (goesOn : GoesOn consumes looks place continue? result) :
    ∃ read later, place.Reads read later ∧ continue? later = some result := by
  obtain ⟨read, later, reads, goes, _⟩ := goesOn
  exact ⟨read, later, reads, goes⟩

/-- A pattern that matches reads some characters and goes on behind them. -/
theorem goesOn_run (pattern : Pattern) (matched : pattern.run place continue? = some result) :
    GoesOn pattern.consumes pattern.looks place continue? result := by
  induction pattern generalizing place continue? with
  | char accepts =>
    rw [run] at matched
    cases text : place.rest with
    | nil => rw [text] at matched; cases matched
    | cons next rest =>
      rw [text] at matched
      obtain ⟨_, goes⟩ := Option.ite_none_right_eq_some.mp matched
      exact ⟨[next], Place.step next rest, text, goes, fun _ => List.cons_ne_nil _ _,
        fun no => absurd no Bool.false_ne_true⟩
  | text chars =>
    obtain ⟨later, reads, goes⟩ := exists_reads_runText matched
    exact ⟨chars, later, reads, goes, by simp [consumes], by simp [looks]⟩
  -- the forms that look but read nothing stay in front of the same text
  | textStart => exact goesOn_here (Option.ite_none_right_eq_some.mp matched).2
  | lineStart => exact goesOn_here (Option.ite_none_right_eq_some.mp matched).2
  | lineEnd => exact goesOn_here (Option.ite_none_right_eq_some.mp matched).2
  | wordBoundary => exact goesOn_here (Option.ite_none_right_eq_some.mp matched).2
  | both first second one two => exact (one matched).both two
  | either first second one two =>
    rw [run] at matched
    rcases eq_some_of_orElse matched with here | other
    · exact (one here).mono (fun all => (Bool.and_eq_true_iff.mp all).1)
        fun all => (Bool.and_eq_true_iff.mp all).1
    · exact (two other).mono (fun all => (Bool.and_eq_true_iff.mp all).2)
        fun all => (Bool.and_eq_true_iff.mp all).2
  | many round ih =>
    rw [run] at matched
    exact goesOn_of_reads (exists_reads_runMany (fun once => (ih once).exists_reads) matched)
  | few round ih =>
    rw [run] at matched
    exact goesOn_of_reads (exists_reads_runFew (fun once => (ih once).exists_reads) matched)
  | ahead next ih =>
    rw [run] at matched
    obtain ⟨_, _, _, goes, _⟩ := ih matched
    exact goesOn_here goes

end Pattern

end DocGrammar
