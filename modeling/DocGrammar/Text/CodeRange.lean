/-! # Ranges of code points

Character classes of the Unicode standard are tables of closed intervals of code points. This
file holds the interval type and the membership test that every class table shares:

* **`CodeRange`** — a closed interval of code points.
* **`CodeRange.covers ranges char`** — whether some interval of a table holds a character. -/

namespace DocGrammar

/-- A closed interval of code points, as its first and its last member. -/
abbrev CodeRange : Type := Nat × Nat

namespace CodeRange

/-- Whether the interval `range` holds the code point of `char`. -/
def holds (range : CodeRange) (char : Char) : Bool :=
  range.1 ≤ char.toNat && char.toNat ≤ range.2

/-- Whether some interval of the table `ranges` holds the code point of `char`. -/
def covers (ranges : List CodeRange) (char : Char) : Bool :=
  ranges.any fun range => range.holds char

/-- A character lies in a table exactly when one of its intervals bounds its code point. -/
theorem covers_eq_true_iff (ranges : List CodeRange) (char : Char) :
    covers ranges char = true ↔
      ∃ range ∈ ranges, range.1 ≤ char.toNat ∧ char.toNat ≤ range.2 := by
  simp [covers, holds]

end CodeRange

end DocGrammar
