import DocGrammar.Text.Word
import DocGrammar.Token.Code
import DocGrammar.Token.Document
import Mathlib.Data.List.Chain

/-! # Characters of words and numbers

The classes of characters are tables of code points. What starts a word is no digit, and neither
what starts a word nor a digit has a meaning of its own in code. No character of a word is white
space or forbidden in a document.

* **`CodeRange.not_covers_of_apart`** — no character lies in two tables that are apart.
* **`isBlank_of_isWordChar`** — words hold no white space. -/

namespace DocGrammar

namespace CodeRange

/-- Whether no interval of one table meets an interval of the other. -/
def apart (ranges others : List CodeRange) : Bool :=
  ranges.all fun range => others.all fun other =>
    Nat.blt range.2 other.1 || Nat.blt other.2 range.1

/-- A character of one table lies in no table that is apart from it. -/
theorem not_covers_of_apart {ranges others : List CodeRange} (far : apart ranges others = true)
    {char : Char} (inside : covers ranges char = true) : covers others char = false := by
  obtain ⟨range, member, low, high⟩ := (covers_eq_true_iff ranges char).mp inside
  rw [Bool.eq_false_iff]
  intro outside
  obtain ⟨other, otherMember, otherLow, otherHigh⟩ := (covers_eq_true_iff others char).mp outside
  have separate := List.all_eq_true.mp (List.all_eq_true.mp far range member) other otherMember
  simp only [Bool.or_eq_true, Nat.blt_eq] at separate
  omega

/-- The intervals of a table from the first one on that does not end before an interval. -/
def ahead (range : CodeRange) (others : List CodeRange) : List CodeRange :=
  others.dropWhile fun other => Nat.blt other.2 range.1

/-- Whether no interval of one table meets an interval of the other on a walk along both. -/
def passes : List CodeRange → List CodeRange → Bool
  | [], _ => true
  | range :: ranges, others =>
    (ahead range others).head?.all (fun other => Nat.blt range.2 other.1) &&
      passes ranges (ahead range others)

/-- An interval of a table ends before an interval, or the walk does not pass it there. -/
theorem lt_or_mem_ahead {range other : CodeRange} {others : List CodeRange}
    (member : other ∈ others) : other.2 < range.1 ∨ other ∈ ahead range others := by
  rw [← List.takeWhile_append_dropWhile (p := fun other => Nat.blt other.2 range.1)
    (l := others)] at member
  rcases List.mem_append.mp member with passed | left
  · have ends := List.all_eq_true.mp List.all_takeWhile other passed
    exact .inl (Nat.blt_eq.mp ends)
  · exact .inr left

/-- Tables in ascending order are apart if no common interval is met on the walk along both. -/
theorem apart_of_passes {ranges others : List CodeRange}
    (ascends : (ranges.map Prod.fst).IsChain (· ≤ ·))
    (otherAscends : (others.map Prod.fst).IsChain (· ≤ ·))
    (along : passes ranges others = true) : apart ranges others = true := by
  simp only [apart, List.all_eq_true, Bool.or_eq_true, Nat.blt_eq]
  rw [List.isChain_iff_pairwise, List.pairwise_map] at ascends otherAscends
  induction ranges generalizing others with
  | nil => exact List.forall_mem_nil _
  | cons range ranges ih =>
    obtain ⟨least, ascends⟩ := List.pairwise_cons.mp ascends
    obtain ⟨first, along⟩ := Bool.and_eq_true_iff.mp along
    have left : (ahead range others).Pairwise fun other later => other.1 ≤ later.1 :=
      otherAscends.sublist (List.dropWhile_sublist _)
    have below := ih ascends left along
    refine List.forall_mem_cons.mpr ⟨fun other member => ?_, fun later inside other member => ?_⟩
    · refine (lt_or_mem_ahead member).symm.imp_left fun behind => ?_
      -- the first interval that is left starts behind this one, and the others behind the first
      cases rest : ahead range others with
      | nil => exact absurd (rest ▸ behind) List.not_mem_nil
      | cons next more =>
        rw [rest] at first left behind
        have starts : range.2 < next.1 := Nat.blt_eq.mp first
        rcases List.mem_cons.mp behind with rfl | behind
        · exact starts
        · exact Nat.lt_of_lt_of_le starts ((List.pairwise_cons.mp left).1 other behind)
    · rcases lt_or_mem_ahead member with passed | behind
      · exact .inr (Nat.lt_of_lt_of_le passed (least later inside))
      · exact below later inside other behind

/-- A character of a table is at least as great as a bound of all its intervals. -/
theorem le_of_covers {ranges : List CodeRange} {bound : Nat}
    (least : (ranges.all fun range => bound ≤ range.1) = true) {char : Char}
    (inside : covers ranges char = true) : bound ≤ char.toNat := by
  obtain ⟨range, member, low, _⟩ := (covers_eq_true_iff ranges char).mp inside
  have bounded := of_decide_eq_true (List.all_eq_true.mp least range member)
  omega

end CodeRange

/-! ## Words and digits -/

/-- A character between two others has a code point between theirs. -/
theorem toNat_of_within {char low high : Char} (within : (low ≤ char && char ≤ high) = true) :
    low.toNat ≤ char.toNat ∧ char.toNat ≤ high.toNat := by
  simp only [Bool.and_eq_true, decide_eq_true_eq] at within
  exact ⟨UInt32.le_iff_toNat_le.mp within.1, UInt32.le_iff_toNat_le.mp within.2⟩

/-- The tables have no ASCII characters. -/
theorem tables_behind_ascii : (letterRanges.all fun range => 170 ≤ range.1) = true ∧
    (digitRanges.all fun range => 178 ≤ range.1) = true ∧
    (numeralRanges.all fun range => 188 ≤ range.1) = true := by
  decide +kernel

theorem le_of_covers_letterRanges {char : Char}
    (inside : CodeRange.covers letterRanges char = true) : 170 ≤ char.toNat :=
  CodeRange.le_of_covers tables_behind_ascii.1 inside

theorem le_of_covers_digitRanges {char : Char}
    (inside : CodeRange.covers digitRanges char = true) : 178 ≤ char.toNat :=
  CodeRange.le_of_covers tables_behind_ascii.2.1 inside

theorem le_of_covers_numeralRanges {char : Char}
    (inside : CodeRange.covers numeralRanges char = true) : 188 ≤ char.toNat :=
  CodeRange.le_of_covers tables_behind_ascii.2.2 inside

/-- A letter is one of the ASCII letters, or it lies in the table of the others. -/
theorem isLetter_cases {char : Char} (letter : isLetter char = true) :
    (65 ≤ char.toNat ∧ char.toNat ≤ 90) ∨ (97 ≤ char.toNat ∧ char.toNat ≤ 122) ∨
      (170 ≤ char.toNat ∧ CodeRange.covers letterRanges char = true) := by
  simp only [isLetter, isAsciiLetter, Bool.or_eq_true] at letter
  rcases letter with (lower | upper) | other
  · exact .inr (.inl (toNat_of_within lower))
  · exact .inl (toNat_of_within upper)
  · exact .inr (.inr ⟨le_of_covers_letterRanges other, other⟩)

/-- A digit is one of the ASCII digits, or it lies in the table of the others. -/
theorem isDigit_cases {char : Char} (digit : isDigit char = true) :
    (48 ≤ char.toNat ∧ char.toNat ≤ 57) ∨
      (178 ≤ char.toNat ∧ CodeRange.covers digitRanges char = true) := by
  rcases Bool.or_eq_true_iff.mp digit with plain | other
  · exact .inl (toNat_of_within plain)
  · exact .inr ⟨le_of_covers_digitRanges other, other⟩

/-! ## ASCII characters

Among these the classes are read off without their tables. -/

section

variable {char : Char} (ascii : char.toNat < 128)
include ascii

theorem isLetter_of_ascii : isLetter char = isAsciiLetter char := by
  have outside : CodeRange.covers letterRanges char = false := by
    rw [Bool.eq_false_iff]
    intro inside
    have bound := le_of_covers_letterRanges inside
    omega
  rw [isLetter, outside, Bool.or_false]

theorem isDigit_of_ascii : isDigit char = isAsciiDigit char := by
  have outside : CodeRange.covers digitRanges char = false := by
    rw [Bool.eq_false_iff]
    intro inside
    have bound := le_of_covers_digitRanges inside
    omega
  rw [isDigit, outside, Bool.or_false]

theorem isWordStart_of_ascii : isWordStart char = (isAsciiLetter char || char == '_') := by
  rw [isWordStart, isLetter_of_ascii ascii]

theorem isWordChar_of_ascii :
    isWordChar char = (isAsciiLetter char || isAsciiDigit char || char == '_') := by
  have outside : CodeRange.covers numeralRanges char = false := by
    rw [Bool.eq_false_iff]
    intro inside
    have bound := le_of_covers_numeralRanges inside
    omega
  rw [isWordChar, isAlphanumeric, isLetter_of_ascii ascii, isDigit_of_ascii ascii, outside,
    Bool.or_false]

end

/-! ## Starts of words -/

/-- What starts a word is no digit. -/
theorem isDigit_of_isWordStart {char : Char} (starts : isWordStart char = true) :
    isDigit char = false := by
  rw [Bool.eq_false_iff]
  intro digit
  rw [isWordStart, Bool.or_eq_true, beq_iff_eq] at starts
  rcases starts with letter | rfl
  · rcases isLetter_cases letter with upper | lower | ⟨bound, covered⟩
    · rcases isDigit_cases digit with within | within <;> omega
    · rcases isDigit_cases digit with within | within <;> omega
    · rcases isDigit_cases digit with within | ⟨_, within⟩
      · omega
      · have apart : CodeRange.apart letterRanges digitRanges = true :=
          CodeRange.apart_of_passes (by decide +kernel) (by decide +kernel) (by decide +kernel)
        rw [CodeRange.not_covers_of_apart apart covered] at within
        exact Bool.false_ne_true within
  · rw [isDigit_of_ascii (by decide)] at digit
    exact absurd digit (by decide)

/-- What starts a word is none of the characters that do not. -/
theorem ne_of_isWordStart {char other : Char} (starts : isWordStart char = true)
    (otherwise : isWordStart other = false) : char ≠ other := by
  rintro rfl
  rw [starts] at otherwise
  exact Bool.noConfusion otherwise

/-- A digit is none of the characters that are not. -/
theorem ne_of_isDigit {char other : Char} (digit : isDigit char = true)
    (otherwise : isDigit other = false) : char ≠ other := by
  rintro rfl
  rw [digit] at otherwise
  exact Bool.noConfusion otherwise

/-- Digits continue words. -/
theorem isWordChar_of_isDigit {char : Char} (digit : isDigit char = true) :
    isWordChar char = true := by
  rw [isWordChar, isAlphanumeric, digit, Bool.or_true, Bool.true_or, Bool.true_or]

/-! ## Words in documents -/

/-- A character of a word is an ASCII character between the digit zero and the letter z, or it lies
in one of the tables of letters, digits and numerals. -/
theorem isWordChar_cases {char : Char} (continues : isWordChar char = true) :
    (48 ≤ char.toNat ∧ char.toNat ≤ 122) ∨
      (170 ≤ char.toNat ∧ ∃ table ∈ [letterRanges, digitRanges, numeralRanges],
        CodeRange.covers table char = true) := by
  rw [isWordChar, Bool.or_eq_true, beq_iff_eq] at continues
  rcases continues with known | rfl
  · rw [isAlphanumeric, Bool.or_eq_true, Bool.or_eq_true] at known
    rcases known with (letter | digit) | numeral
    · rcases isLetter_cases letter with upper | lower | ⟨bound, covered⟩
      · exact .inl (by omega)
      · exact .inl (by omega)
      · exact .inr ⟨bound, _, by simp, covered⟩
    · rcases isDigit_cases digit with within | ⟨bound, covered⟩
      · exact .inl (by omega)
      · exact .inr ⟨by omega, _, by simp, covered⟩
    · have bound := le_of_covers_numeralRanges numeral
      exact .inr ⟨by omega, _, by simp, numeral⟩
  · exact .inl (by decide)

/-- No character of a word is white space. -/
theorem isBlank_of_isWordChar {char : Char} (continues : isWordChar char = true) :
    isBlank char = false := by
  rcases isWordChar_cases continues with ascii | ⟨_, table, member, covered⟩
  · rw [Bool.eq_false_iff]
    intro blank
    obtain ⟨range, member, low, high⟩ := (CodeRange.covers_eq_true_iff _ _).mp blank
    simp only [blankRanges, List.mem_cons, List.not_mem_nil, or_false] at member
    rcases member with rfl | rfl | rfl | rfl | rfl | rfl | rfl | rfl | rfl | rfl <;>
      simp only at low high <;> omega
  · have apart : ([letterRanges, digitRanges, numeralRanges].all
        (CodeRange.apart · blankRanges)) = true := by decide +kernel
    exact CodeRange.not_covers_of_apart (List.all_eq_true.mp apart table member) covered

/-- The control characters and the delete character are the only ones that can be forbidden. -/
theorem isForbidden_of_toNat {char : Char} (printing : 32 ≤ char.toNat)
    (noDelete : char.toNat ≠ 127) : isForbidden char = false := by
  rw [Bool.eq_false_iff]
  intro forbidden
  simp only [isForbidden, Bool.or_eq_true, Bool.and_eq_true, decide_eq_true_eq] at forbidden
  rcases forbidden with ⟨⟨control, _⟩, _⟩ | rfl
  · have below : char.toNat < 32 := UInt32.lt_iff_toNat_lt.mp control
    omega
  · exact noDelete rfl

/-- No character of a word is forbidden in a document. -/
theorem isForbidden_of_isWordChar {char : Char} (continues : isWordChar char = true) :
    isForbidden char = false := by
  rcases isWordChar_cases continues with ascii | ⟨bound, _⟩
  · exact isForbidden_of_toNat (by omega) (by omega)
  · exact isForbidden_of_toNat (by omega) (by omega)

end DocGrammar
