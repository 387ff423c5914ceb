import DocGrammar.Token.Code
import Mathlib.Data.List.Forall2
import Mathlib.Order.Defs.PartialOrder

/-! # Positions in a text

Positions are ordered by line, then by column. Reading a text leads from each position to greater
ones, so what stands one behind the other in a text is in increasing order.

* **`Position.le_after`**, **`Position.lt_after`** — reading leads to greater positions.
* **`Position.before_after`** — the last position of a stretch of text.
* **`Segment`** — a stretch of a document together with its position.
* **`Along`** — things that stand one behind the other along a stretch of text. -/

namespace DocGrammar

namespace Position

/-! ## The order of positions -/

/-- Positions are ordered by line, then by column. -/
instance : LE Position :=
  ⟨fun first second => first.line < second.line ∨
    first.line = second.line ∧ first.column ≤ second.column⟩

/-- A position is less than another on a later line, or further right on the same line. -/
instance : LT Position :=
  ⟨fun first second => first.line < second.line ∨
    first.line = second.line ∧ first.column < second.column⟩

variable {position first second third : Position} {char : Char} {chars : List Char}

theorem le_iff : first ≤ second ↔ first.line < second.line ∨
    first.line = second.line ∧ first.column ≤ second.column := Iff.rfl

theorem lt_iff : first < second ↔ first.line < second.line ∨
    first.line = second.line ∧ first.column < second.column := Iff.rfl

instance : DecidableLE Position := fun _ _ => decidable_of_iff _ le_iff.symm

instance : DecidableLT Position := fun _ _ => decidable_of_iff _ lt_iff.symm

instance : PartialOrder Position where
  le_refl position := by
    rw [le_iff]
    omega
  le_trans first second third := by
    simp only [le_iff]
    omega
  lt_iff_le_not_ge first second := by
    simp only [le_iff, lt_iff]
    omega
  le_antisymm first second := by
    obtain ⟨line, column⟩ := first
    obtain ⟨line', column'⟩ := second
    simp only [le_iff, mk.injEq]
    omega

/-! ## Reading on -/

theorem lt_step (position : Position) (char : Char) : position < position.step char := by
  rw [step, lt_iff]
  split
  · exact .inl (by show position.line < position.line + 1; omega)
  · exact .inr ⟨rfl, by show position.column < position.column + 1; omega⟩

/-- Reading never leads back. -/
theorem le_after (position : Position) (chars : List Char) : position ≤ position.after chars := by
  induction chars generalizing position with
  | nil => exact le_refl position
  | cons char chars ih => exact le_trans (le_of_lt (lt_step position char)) (ih _)

/-- Reading a character leads on. -/
theorem lt_after (position : Position) (nonempty : chars ≠ []) :
    position < position.after chars := by
  obtain ⟨char, others, rfl⟩ := List.exists_cons_of_ne_nil nonempty
  exact lt_of_lt_of_le (lt_step position char) (le_after _ others)

theorem after_concat (position : Position) (front : List Char) (last : Char) :
    position.after (front ++ [last]) = (position.after front).step last := by
  rw [after_append]
  rfl

/-- Columns count from one. -/
theorem one_le_column_after (counted : 1 ≤ position.column) (chars : List Char) :
    1 ≤ (position.after chars).column := by
  induction chars generalizing position with
  | nil => exact counted
  | cons char chars ih =>
    refine ih ?_
    rw [step]
    split
    · exact Int.le_refl 1
    · show 1 ≤ position.column + 1
      omega

/-- Lines are never left backwards. -/
theorem line_le_line_after (position : Position) (chars : List Char) :
    position.line ≤ (position.after chars).line := by
  have onward := le_after position chars
  rw [le_iff] at onward
  omega

/-- On a line, reading counts columns. -/
theorem after_of_noFeed (noFeed : '\n' ∉ chars) :
    position.after chars = ⟨position.line, position.column + chars.length⟩ := by
  induction chars generalizing position with
  | nil => simp
  | cons char chars ih =>
    have other : char ≠ '\n' := fun same => noFeed (same ▸ List.mem_cons_self)
    rw [after_cons, ih fun member => noFeed (List.mem_cons_of_mem _ member), step, if_neg other]
    simp only [List.length_cons, mk.injEq, true_and]
    omega

/-- The position behind a character that ends no line goes back to that of the character. -/
theorem before_step (counted : 1 ≤ position.column) (other : char ≠ '\n') :
    (position.step char).before = position := by
  rw [step, if_neg other, before]
  show (⟨position.line, _⟩ : Position) = position
  rw [if_pos (by show 1 < position.column + 1; omega)]
  show (⟨position.line, position.column + 1 - 1⟩ : Position) = position
  rw [Int.add_sub_cancel]

/-- The last position of a stretch of text is that of its last character. -/
theorem before_after (counted : 1 ≤ position.column) (front : List Char) {last : Char}
    (other : last ≠ '\n') : (position.after (front ++ [last])).before = position.after front := by
  rw [after_concat]
  exact before_step (one_le_column_after counted front) other

/-- What comes before a step along a line comes no later than the step. -/
theorem le_of_lt_step (other : char ≠ '\n') (less : first < second.step char) : first ≤ second := by
  rw [step, if_neg other] at less
  simp only [lt_iff, le_iff] at less ⊢
  omega

end Position

/-! ## Stretches of a document -/

/-- Some characters stand in a document at a position. -/
def Segment (document : List Char) (start : Position) (chars : List Char) : Prop :=
  ∃ front behind, document = front ++ (chars ++ behind) ∧ start = Position.origin.after front

variable {document chars more before : List Char} {start : Position}

theorem segment_self (document : List Char) : Segment document Position.origin document :=
  ⟨[], [], by simp, rfl⟩

/-- A stretch of a stretch is a stretch. -/
theorem Segment.part (segment : Segment document start (before ++ (chars ++ more))) :
    Segment document (start.after before) chars := by
  obtain ⟨front, behind, rfl, rfl⟩ := segment
  exact ⟨front ++ before, more ++ behind, by simp only [List.append_assoc],
    (Position.after_append _ _ _).symm⟩

theorem Segment.left (segment : Segment document start (chars ++ more)) :
    Segment document start chars := by
  obtain ⟨front, behind, rfl, rfl⟩ := segment
  exact ⟨front, more ++ behind, by simp only [List.append_assoc], rfl⟩

theorem Segment.right (segment : Segment document start (before ++ chars)) :
    Segment document (start.after before) chars := by
  obtain ⟨front, behind, rfl, rfl⟩ := segment
  exact ⟨front ++ before, behind, by simp only [List.append_assoc],
    (Position.after_append _ _ _).symm⟩

theorem Segment.tail {char : Char} (segment : Segment document start (char :: chars)) :
    Segment document (start.step char) chars :=
  @Segment.right document chars [char] start segment

theorem Segment.one_le_column (segment : Segment document start chars) : 1 ≤ start.column := by
  obtain ⟨front, _, _, rfl⟩ := segment
  exact Position.one_le_column_after (Int.le_refl 1) front

theorem Segment.one_le_line (segment : Segment document start chars) : 1 ≤ start.line := by
  obtain ⟨front, _, _, rfl⟩ := segment
  exact Position.line_le_line_after Position.origin front

/-- A stretch of a text before a line feed that does not end with one stands in the text. -/
theorem exists_of_concat_feed {front gap own rest : List Char}
    (split : front ++ ['\n'] = gap ++ (own ++ rest))
    (ends : ∃ init last, own = init ++ [last] ∧ last ≠ '\n') :
    ∃ between, front = gap ++ (own ++ between) := by
  obtain ⟨init, last, rfl, other⟩ := ends
  -- without a rest, the last character of `own` would be the line feed
  rcases List.eq_nil_or_concat rest with rfl | ⟨between, final, rfl⟩
  · rw [List.append_nil, ← List.append_assoc] at split
    exact absurd (List.append_inj_right' split rfl) (by simpa using other.symm)
  · rw [List.concat_eq_append, ← List.append_assoc, ← List.append_assoc] at split
    exact ⟨between, by rw [List.append_inj_left' split rfl, List.append_assoc]⟩

/-! ## Spans over a stretch of text -/

/-- A span goes from the first to the last of some characters. The last one is no line feed. -/
structure Span.Covers (span : Span) (start : Position) (own : List Char) : Prop where
  /-- It starts at the first one. -/
  starts : span.start = start
  /-- It stops at the last one. -/
  ends : ∃ front last, own = front ++ [last] ∧ last ≠ '\n' ∧ span.stop = start.after front

namespace Span.Covers

variable {span other : Span} {own : List Char}

/-- A span that stops before the position behind some characters covers them. -/
theorem of_before (starts : span.start = start) (stops : span.stop = (start.after own).before)
    (counted : 1 ≤ start.column) (ends : ∃ front last, own = front ++ [last] ∧ last ≠ '\n') :
    span.Covers start own := by
  obtain ⟨front, last, rfl, other⟩ := ends
  exact ⟨starts, front, last, rfl, other, stops.trans (Position.before_after counted front other)⟩

/-- A span that covers some characters and one that ends where a longer text does. -/
theorem through (covers : span.Covers start own) {place : Position} {rest : List Char}
    (covers' : other.Covers place rest) {front : List Char} (reaches : start.after front = place) :
    (span.through other).Covers start (front ++ rest) := by
  obtain ⟨before, last, rfl, noFeed, stops⟩ := covers'.ends
  refine ⟨covers.starts, front ++ before, last, by rw [List.append_assoc], noFeed, ?_⟩
  rw [Position.after_append, reaches]
  exact stops

/-- The characters do not end with a line feed. -/
theorem exists_last (covers : span.Covers start own) :
    ∃ init last, own = init ++ [last] ∧ last ≠ '\n' := by
  obtain ⟨init, last, shape, other, _⟩ := covers.ends
  exact ⟨init, last, shape, other⟩

theorem start_le_stop (covers : span.Covers start own) : span.start ≤ span.stop := by
  obtain ⟨front, last, _, _, stops⟩ := covers.ends
  rw [covers.starts, stops]
  exact Position.le_after start front

/-- A position before the end of some characters lies within a span that covers them. -/
theorem le_stop (covers : span.Covers start own) {position : Position}
    (less : position < start.after own) : position ≤ span.stop := by
  obtain ⟨front, last, rfl, other, stops⟩ := covers.ends
  rw [Position.after_concat] at less
  rw [stops]
  exact Position.le_of_lt_step other less

theorem stop_lt (covers : span.Covers start own) : span.stop < start.after own := by
  obtain ⟨front, last, rfl, _, stops⟩ := covers.ends
  rw [stops, Position.after_concat]
  exact Position.lt_step _ last

/-- A span over some characters of a line, behind others of the line. -/
theorem piece (file : String) (place : Position) {before own : List Char}
    (line : '\n' ∉ before ++ own) (nonempty : own ≠ []) :
    Span.Covers ⟨file, ⟨place.line, place.column + before.length⟩,
        ⟨place.line, place.column + before.length + own.length - 1⟩⟩ (place.after before) own := by
  have split := List.dropLast_concat_getLast nonempty
  have ahead : '\n' ∉ before := fun member => line (List.mem_append_left own member)
  have inner : '\n' ∉ own.dropLast := fun member =>
    line (List.mem_append_right before ((List.dropLast_sublist own).subset member))
  refine ⟨(Position.after_of_noFeed ahead).symm, own.dropLast, own.getLast nonempty, split.symm,
    fun same => ?_, ?_⟩
  · refine line (List.mem_append_right before ?_)
    rw [← same]
    exact List.getLast_mem nonempty
  · have positive : 1 ≤ own.length := List.length_pos_iff.mpr nonempty
    rw [Position.after_of_noFeed ahead, Position.after_of_noFeed inner]
    simp only [Position.mk.injEq, true_and, List.length_dropLast]
    omega

end Span.Covers

/-! ## Things along a text -/

/-- Some things stand, one behind the other, along a stretch of text, each of them `on` a stretch of
its own. -/
inductive Along {α : Type} (on : Position → List Char → α → Prop) :
    Position → List Char → List α → Prop
  /-- Nothing more stands there. -/
  | done {start : Position} {chars : List Char} : Along on start chars []
  /-- Some text is passed over. -/
  | skip {start : Position} {gap chars : List Char} {items : List α}
      (behind : Along on (start.after gap) chars items) : Along on start (gap ++ chars) items
  /-- A thing stands on its own stretch of text. -/
  | item {start : Position} {own chars : List Char} {item : α} {items : List α}
      (here : on start own item) (behind : Along on (start.after own) chars items) :
      Along on start (own ++ chars) (item :: items)

namespace Along

variable {α β : Type} {on on' : Position → List Char → α → Prop}
  {onOther : Position → List Char → β → Prop} {item : α} {items others : List α}

theorem single (here : on start chars item) : Along on start chars [item] := by
  have whole := Along.item here (.done : Along on (start.after chars) [] [])
  rwa [List.append_nil] at whole

/-- A character is passed over. -/
theorem skipChar {char : Char} (behind : Along on (start.step char) chars items) :
    Along on start (char :: chars) items :=
  @Along.skip α on start [char] chars items behind

/-- A thing without a text of its own stands between two characters. -/
theorem hollow (here : on start [] item) (behind : Along on start chars items) :
    Along on start chars (item :: items) :=
  @Along.item α on start [] chars item items here behind

/-- What stands along a text and what stands along the text behind it stand along both. -/
theorem append (along : Along on start chars items)
    (along' : Along on (start.after chars) more others) :
    Along on start (chars ++ more) (items ++ others) := by
  induction along with
  | done => exact .skip along'
  | skip _ ih =>
    rw [Position.after_append] at along'
    rw [List.append_assoc]
    exact .skip (ih along')
  | item here _ ih =>
    rw [Position.after_append] at along'
    rw [List.append_assoc]
    exact .item here (ih along')

/-- What stands along a text stands along any longer one. -/
theorem extend (along : Along on start chars items) (more : List Char) :
    Along on start (chars ++ more) items := by
  have whole := along.append (.done : Along on (start.after chars) more [])
  rwa [List.append_nil] at whole

/-- The first of some things stands behind a gap, and the others behind it. -/
theorem exists_head (along : Along on start chars (item :: items)) :
    ∃ gap own rest, chars = gap ++ (own ++ rest) ∧ on (start.after gap) own item ∧
      Along on ((start.after gap).after own) rest items := by
  generalize whole : item :: items = all at along
  induction along with
  | done => cases whole
  | @skip start gap chars all _ ih =>
    -- the text that is passed over joins the gap
    obtain ⟨gap', own, rest, rfl, here, behind⟩ := ih whole
    refine ⟨gap ++ gap', own, rest, by simp only [List.append_assoc], ?_, ?_⟩
    · rwa [Position.after_append]
    · rwa [Position.after_append start]
  | @item start own chars item all here behind =>
    cases whole
    exact ⟨[], own, chars, rfl, here, behind⟩

/-- Where some things stand along a text, each part of them stands along a part of it. -/
theorem exists_split (along : Along on start chars (items ++ others)) :
    ∃ front back, chars = front ++ back ∧ Along on start front items ∧
      Along on (start.after front) back others := by
  -- on the things, not on how they stand: text may be passed over before each of them
  induction items generalizing start chars with
  | nil => exact ⟨[], chars, rfl, .done, along⟩
  | cons item items ih =>
    obtain ⟨gap, own, rest, rfl, here, behind⟩ := exists_head along
    obtain ⟨front, back, rfl, first, second⟩ := ih behind
    refine ⟨gap ++ (own ++ front), back, by simp only [List.append_assoc],
      .skip (.item here first), ?_⟩
    simpa only [Position.after_append] using second

/-- The text from the start of the first to the end of the last of some things. -/
theorem exists_frame {first last : α} (along : Along on start chars items)
    (starts : items.head? = some first) (ends : items.getLast? = some last) :
    ∃ gap front own behind ownFirst, chars = gap ++ (front ++ own ++ behind) ∧
      on (start.after gap) ownFirst first ∧ on ((start.after gap).after front) own last ∧
      Along on (start.after gap) (front ++ own) items := by
  -- what stands before the first thing is cut off, then what stands behind the last one
  obtain ⟨others, rfl⟩ := List.head?_eq_some_iff.mp starts
  obtain ⟨gap, ownFirst, rest, rfl, here, onward⟩ := along.exists_head
  have trimmed := Along.item here onward
  obtain ⟨init, shape⟩ := List.getLast?_eq_some_iff.mp ends
  rw [shape] at trimmed ⊢
  obtain ⟨before, back, cut, standInit, standLast⟩ := trimmed.exists_split
  obtain ⟨between, own, behind, rfl, there, _⟩ := standLast.exists_head
  rw [← Position.after_append] at there
  refine ⟨gap, before ++ between, own, behind, ownFirst, ?_, here, there, ?_⟩
  · rw [cut]
    simp only [List.append_assoc]
  · rw [List.append_assoc]
    refine standInit.append (.skip (.single ?_))
    rwa [Position.after_append] at there

/-- Things may be left out. -/
theorem sublist (along : Along on start chars items) (fewer : others.Sublist items) :
    Along on start chars others := by
  induction fewer generalizing start chars with
  | slnil => exact .done
  | cons item _ ih =>
    -- the text of a thing that is left out is passed over
    obtain ⟨gap, own, rest, rfl, _, behind⟩ := exists_head along
    rw [← List.append_assoc]
    refine .skip ?_
    rw [Position.after_append]
    exact ih behind
  | cons_cons item _ ih =>
    obtain ⟨gap, own, rest, rfl, here, behind⟩ := exists_head along
    exact .skip (.item here (ih behind))

/-- What is made of each thing may stand on what the thing stands on. -/
theorem images {makes : α → β → Prop} {results : List β} (along : Along on start chars items)
    (made : List.Forall₂ makes items results)
    (parts : ∀ {start own item result}, makes item result → on start own item →
      onOther start own result) :
    Along onOther start chars results := by
  induction along generalizing results with
  | done =>
    cases made
    exact .done
  | skip _ ih => exact .skip (ih made)
  | item here _ ih =>
    cases made with
    | cons first others => exact .item (parts first here) (ih others)

theorem map {part : α → β} (along : Along on start chars items)
    (parts : ∀ {start own item}, item ∈ items → on start own item →
      onOther start own (part item)) :
    Along onOther start chars (items.map part) := by
  -- the relation remembers that each thing is one of the list, for `parts`
  have made : List.Forall₂ (fun item result => item ∈ items ∧ part item = result) items
      (items.map part) :=
    List.forall₂_map_right_iff.mpr (List.forall₂_same.mpr fun _ member => ⟨member, rfl⟩)
  refine along.images made ?_
  rintro start own item _ ⟨member, rfl⟩ here
  exact parts member here

/-- Along a stretch of a document, things stand on stretches of it. -/
theorem inSegment {document : List Char} (along : Along on start chars items)
    (segment : Segment document start chars) :
    Along (fun start own item => Segment document start own ∧ on start own item) start chars
      items := by
  induction along with
  | done => exact .done
  | skip _ ih => exact .skip (ih segment.right)
  | item here _ ih => exact .item ⟨segment.left, here⟩ (ih segment.right)

/-- Where a thing stands, it stands on a stretch between the ends of the text. -/
theorem exists_on (along : Along on start chars items) (member : item ∈ items) :
    ∃ gap own rest, chars = gap ++ (own ++ rest) ∧ on (start.after gap) own item := by
  obtain ⟨before, behind, rfl⟩ := List.append_of_mem member
  obtain ⟨front, back, rfl, _, stands⟩ := along.exists_split
  obtain ⟨gap, own, rest, rfl, here, _⟩ := stands.exists_head
  rw [← Position.after_append] at here
  exact ⟨front ++ gap, own, rest, by simp only [List.append_assoc], here⟩

/-- Where a thing stands along a stretch of a document, it stands on a stretch of it. -/
theorem exists_segment {document : List Char} (along : Along on start chars items)
    (segment : Segment document start chars) (member : item ∈ items) :
    ∃ place own, Segment document place own ∧ on place own item := by
  obtain ⟨gap, own, rest, _, here⟩ := (along.inSegment segment).exists_on member
  exact ⟨start.after gap, own, here⟩

/-- Of two things, the first stands before the second. -/
theorem pairwise {before : α → α → Prop} (along : Along on start chars items)
    (apart : ∀ {start : Position} {own gap own' : List Char} {item other : α},
      on start own item → on ((start.after own).after gap) own' other → before item other) :
    items.Pairwise before := by
  induction along with
  | done => exact .nil
  | skip _ ih => exact ih
  | item here behind ih =>
    refine .cons (fun other member => ?_) ih
    obtain ⟨gap, own', rest, rfl, there⟩ := behind.exists_on member
    exact apart here there

end Along

end DocGrammar
