import DocGrammar.Text.Blank

/-! # Trimming

Removal of a class of characters from the ends of a text. White space is trimmed from titles,
targets, descriptions and body lines; line feeds are trimmed from fixture inputs. -/

namespace DocGrammar

/-! ## Trimming a list of characters -/

/-- The list without its longest tail whose characters all satisfy `drops`. -/
def dropTailWhile (drops : Char → Bool) : List Char → List Char
  | [] => []
  | char :: rest =>
    match dropTailWhile drops rest with
    | [] => if drops char then [] else [char]
    | kept => char :: kept

/-- The list without its leading and trailing characters that satisfy `drops`. -/
def trimWhile (drops : Char → Bool) (chars : List Char) : List Char :=
  dropTailWhile drops (chars.dropWhile drops)

/-- The list without white space at its end. -/
def trimEnd (chars : List Char) : List Char :=
  dropTailWhile isBlank chars

/-- The list without white space at either end. -/
def trim (chars : List Char) : List Char :=
  trimWhile isBlank chars

@[simp] theorem dropTailWhile_nil (drops : Char → Bool) : dropTailWhile drops [] = [] := rfl

/-- What is dropped from the end satisfies the predicate, and nothing else is lost. -/
theorem dropTailWhile_append (drops : Char → Bool) (chars : List Char) :
    ∃ tail, chars = dropTailWhile drops chars ++ tail ∧ ∀ char ∈ tail, drops char = true := by
  induction chars with
  | nil => exact ⟨[], by simp⟩
  | cons char rest ih =>
    obtain ⟨tail, split, dropped⟩ := ih
    cases kept : dropTailWhile drops rest with
    | nil =>
      rw [kept, List.nil_append] at split
      by_cases h : drops char = true
      · refine ⟨char :: rest, by simp [dropTailWhile, kept, h], ?_⟩
        intro other member
        rcases List.mem_cons.mp member with rfl | inRest
        · exact h
        · exact dropped other (split ▸ inRest)
      · refine ⟨tail, ?_, dropped⟩
        rw [dropTailWhile, kept]
        simpa [h] using split
    | cons first others =>
      refine ⟨tail, ?_, dropped⟩
      rw [kept] at split
      rw [dropTailWhile, kept]
      simpa using split

/-! ## Trimming a string -/

/-- The text without white space at either end. -/
def trimmed (text : String) : String :=
  String.ofList (trim text.toList)

@[simp] theorem toList_trimmed (text : String) : (trimmed text).toList = trim text.toList := by
  simp [trimmed]

/-- Whether a text holds nothing but white space. -/
def isBlankText (text : String) : Bool :=
  text.toList.all isBlank

end DocGrammar
