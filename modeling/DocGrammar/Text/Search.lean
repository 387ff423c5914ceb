/-! # Searching a text

The column of a title, a name or a description is found by looking for it in its line. -/

namespace DocGrammar

/-- The offset of the first occurrence of `piece` in a text. -/
def offsetOf? (piece : List Char) : List Char → Option Nat
  | [] => if piece.isEmpty then some 0 else none
  | char :: rest =>
    if piece.isPrefixOf (char :: rest) then some 0 else (offsetOf? piece rest).map (· + 1)

/-- The piece stands at the offset that is found. -/
theorem isPrefixOf_drop_offsetOf? {piece text : List Char} {offset : Nat}
    (h : offsetOf? piece text = some offset) : piece.isPrefixOf (text.drop offset) = true := by
  induction text generalizing offset with
  | nil => cases piece <;> simp_all [offsetOf?]
  | cons char rest ih =>
    rw [offsetOf?] at h
    split at h
    · cases h
      assumption
    · obtain ⟨found, search, rfl⟩ := Option.map_eq_some_iff.mp h
      simpa using ih search

end DocGrammar
