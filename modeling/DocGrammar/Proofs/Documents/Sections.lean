import DocGrammar.Proofs.Documents.Lexing
import DocGrammar.Proofs.Documents.Moves

/-! # Sections of a document

Only the last section of a document can be at fault by itself, and then because the document ends
inside one of its fenced blocks.

* **`Draft.complete_step`** — a section that is complete is not at fault.
* **`Document.failure_of_ofTokens`** — where a section at fault can stand, and what is wrong. -/

namespace DocGrammar

/-- What a list of sections may be at fault for: the last one for an open fence, the others for
nothing. -/
structure FaultsAtEnd (parts : List Section) : Prop where
  /-- No section but the last one is at fault. -/
  others : ∀ part ∈ parts.dropLast, part.failure = none
  /-- A section at fault ends inside a fenced block. -/
  fence : ∀ part ∈ parts, ∀ diagnostic, part.failure = some diagnostic →
    diagnostic.cause = .unterminatedFence

/-- What remains of the sections behind some of them is at fault for no more. -/
theorem FaultsAtEnd.of_suffix {parts others : List Section} (faults : FaultsAtEnd parts)
    (behind : others <:+ parts) : FaultsAtEnd others := by
  obtain ⟨front, rfl⟩ := behind
  refine ⟨?_, fun part member => faults.fence part (List.mem_append_right _ member)⟩
  intro part member
  have nonempty : others ≠ [] := by
    rintro rfl
    exact absurd member List.not_mem_nil
  refine faults.others part ?_
  rw [List.dropLast_append_of_ne_nil nonempty]
  exact List.mem_append_right _ member

namespace Draft

/-- A draft with no section at fault among the complete ones. -/
def Sound (draft : Draft) : Prop := ∀ part ∈ draft.complete, part.failure = none

theorem sound_addItem {draft : Draft} (sound : draft.Sound) (item : Item) :
    (draft.addItem item).Sound := sound

theorem sound_addLine {draft : Draft} (sound : draft.Sound) (line : Token) :
    (draft.addLine line).Sound := by
  unfold addLine
  split
  · split
    · exact sound
    · exact sound
  · exact sound

theorem sound_openSection {draft : Draft} (sound : draft.Sound) (heading : Heading) :
    (draft.openSection heading).Sound := by
  intro part member
  rcases List.mem_append.mp member with before | new
  · exact sound part before
  · rw [List.mem_singleton.mp new]

/-- A token closes no section that is at fault. -/
theorem Moves.sound {draft extended : Draft} {token : Token} {region next : Region}
    (moves : Moves draft region token next extended) (sound : draft.Sound) : extended.Sound := by
  induction moves with
  | line => exact sound_addLine sound _
  | title => exact sound_openSection sound _
  | description | close => exact sound_addItem sound _
  | bare _ _ ih => exact ih (sound_addItem sound _)
  | _ => exact sound

/-- The last section of a document is at fault for an open fence at most. -/
theorem fence_of_lastSection? {draft : Draft} {region : Region} {last : Section}
    (found : draft.lastSection? region = some last) (diagnostic : Diagnostic)
    (failure : last.failure = some diagnostic) : diagnostic.cause = .unterminatedFence := by
  cases region with
  | prose => cases found; cases failure
  | linkDescription bullet target => cases found; cases failure
  | fence opener lines => cases found; cases failure; rfl
  | _ => cases found

/-- Complete sections and the last one are at fault at the end only. -/
theorem faultsAtEnd_append {draft : Draft} {region : Region} {last : Section}
    (sound : draft.Sound) (found : draft.lastSection? region = some last) :
    FaultsAtEnd (draft.complete ++ [last]) := by
  refine ⟨?_, ?_⟩
  · rw [List.dropLast_concat]
    exact sound
  · intro part member diagnostic failure
    rcases List.mem_append.mp member with before | same
    · rw [sound part before] at failure
      cases failure
    · rw [List.mem_singleton.mp same] at failure
      exact fence_of_lastSection? found diagnostic failure

/-- Of the sections that tokens are cut into only the last one can be at fault. -/
theorem Cuts.faultsAtEnd {draft : Draft} {region : Region} {tokens : List Token}
    {parts : List Section} (cuts : Cuts draft region tokens parts) (sound : draft.Sound) :
    FaultsAtEnd parts := by
  induction cuts with
  | @out draft region =>
    cases found : draft.lastSection? region with
    | none =>
      rw [Option.toList_none, List.append_nil]
      refine ⟨fun part member => sound part (List.dropLast_subset _ member), ?_⟩
      intro part member diagnostic failure
      rw [sound part member] at failure
      cases failure
    | some last => exact faultsAtEnd_append sound found
  | finish _ found => exact faultsAtEnd_append sound found
  | move moves _ ih => exact ih (moves.sound sound)

end Draft

namespace Document

theorem dropEmptyPreamble_sublist (parts : List Section) :
    (dropEmptyPreamble parts).Sublist parts := by
  unfold dropEmptyPreamble
  split
  · exact List.sublist_cons_self _ _
  · exact List.Sublist.refl _

/-- Leaving out the preamble brings no section to the end. -/
theorem faultsAtEnd_dropEmptyPreamble {parts : List Section} (faults : FaultsAtEnd parts) :
    FaultsAtEnd (dropEmptyPreamble parts) := by
  unfold dropEmptyPreamble
  split
  · exact faults.of_suffix (List.suffix_cons _ _)
  · exact faults

/-- A section of a document is at fault only if it is the last one and its last fence is open. -/
theorem faultsAtEnd_of_ofTokens {file : String} {tokens : List Token} {document : Document}
    (read : ofTokens file tokens = .ok document) : FaultsAtEnd document.sections := by
  obtain ⟨-, rest, parts, -, cut, whole⟩ := exists_sections_of_ofTokens read
  have empty : Draft.empty.Sound := fun part member => absurd member List.not_mem_nil
  rw [whole]
  exact faultsAtEnd_dropEmptyPreamble ((Draft.cuts_of_sections cut).faultsAtEnd empty)

end Document

end DocGrammar
