import Mathlib.Data.List.Forall2

/-! # Readings that may fail

A reading yields a value or fails. What a sequence of two readings or a traversal yields, or fails
with, stems from one of its parts.

* **`exists_of_bind_ok`**, **`bind_eq_error_iff`** — how a sequence of two readings ends.
* **`forall₂_of_mapM_ok`**, **`exists_of_mapM_error`** — how a traversal ends. -/

namespace DocGrammar

section

variable {ε α β : Type}

/-! ## Sequences -/

/-- What a sequence of two readings yields, the second one yields from what the first one does. -/
theorem exists_of_bind_ok {first : Except ε α} {next : α → Except ε β} {value : β}
    (reads : first >>= next = .ok value) : ∃ found, first = .ok found ∧ next found = .ok value := by
  cases first with
  | error fault => cases reads
  | ok found => exact ⟨found, rfl, reads⟩

/-- A sequence of two readings fails if the first one does, or the second one on what it yields. -/
theorem bind_eq_error_iff {first : Except ε α} {next : α → Except ε β}
    {fault : ε} : first >>= next = .error fault ↔
      first = .error fault ∨ ∃ found, first = .ok found ∧ next found = .error fault := by
  cases first with
  | error own =>
    refine ⟨fun failed => ?_, ?_⟩
    · cases failed
      exact .inl rfl
    · rintro (⟨⟨⟩⟩ | ⟨_, ⟨⟩, _⟩)
      rfl
  | ok found =>
    refine ⟨fun failed => .inr ⟨found, rfl, failed⟩, ?_⟩
    rintro (⟨⟨⟩⟩ | ⟨_, ⟨⟩, failed⟩)
    exact failed

/-- If the second of two readings cannot fail, the first one does. -/
theorem error_of_bind_ok {first : Except ε α} {next : α → Except ε β} {fault : ε}
    (failed : first >>= next = .error fault) (total : ∀ found, next found ≠ .error fault) :
    first = .error fault := by
  obtain own | ⟨found, _, own⟩ := bind_eq_error_iff.mp failed
  · exact own
  · exact absurd own (total found)

/-! ## Traversals -/

/-- A traversal that succeeds yields what it yields for each of the values. -/
theorem forall₂_of_mapM_ok {f : α → Except ε β} {values : List α} {results : List β}
    (reads : values.mapM f = .ok results) :
    List.Forall₂ (fun value result => f value = .ok result) values results := by
  induction values generalizing results with
  | nil =>
    cases reads
    exact .nil
  | cons value values ih =>
    rw [List.mapM_cons] at reads
    obtain ⟨result, first, reads⟩ := exists_of_bind_ok reads
    obtain ⟨more, behind, reads⟩ := exists_of_bind_ok reads
    cases reads
    exact .cons first (ih behind)

/-- If a traversal fails, it fails on one of the values. -/
theorem exists_of_mapM_error {f : α → Except ε β} {values : List α} {fault : ε}
    (refused : values.mapM f = .error fault) : ∃ value ∈ values, f value = .error fault := by
  induction values with
  | nil => cases refused
  | cons value values ih =>
    rw [List.mapM_cons] at refused
    rcases bind_eq_error_iff.mp refused with here | ⟨_, _, behind⟩
    · exact ⟨value, List.mem_cons_self, here⟩
    · obtain ⟨other, inside, fails⟩ := ih (error_of_bind_ok behind fun _ => nofun)
      exact ⟨other, List.mem_cons_of_mem _ inside, fails⟩

/-- The results of a traversal stem from its values. -/
theorem exists_of_mem_forall₂ {makes : α → β → Prop} {values : List α}
    {results : List β} (made : List.Forall₂ makes values results) {result : β}
    (member : result ∈ results) : ∃ value ∈ values, makes value result := by
  induction made with
  | nil => exact absurd member List.not_mem_nil
  | cons first _ ih =>
    rcases List.mem_cons.mp member with rfl | later
    · exact ⟨_, List.mem_cons_self, first⟩
    · obtain ⟨value, inValues, makes⟩ := ih later
      exact ⟨value, List.mem_cons_of_mem _ inValues, makes⟩

end

end DocGrammar
