import DocGrammar.Proofs.Documents.Run
import Mathlib.Data.List.Perm.Basic

/-! # Recovery from failed sections

A section that fails is dropped together with the deeper sections below it, up to one where the
grammar resumes. So which sections are visited depends on which ones fail, and which ones fail is
known only of those that are visited. This module says by index which sections are visited, without
a walk, and that a walk visits those, in order, up to a failure that no section is dropped for.

* **`Drops`**, **`Visits`** — the sections that a walk leaves out and those that it visits.
* **`Visits.unique`** — they are determined by what becomes of the sections.
* **`WalksOver`** — a walk that visits given sections.
* **`walkSections_recovers`** — a walk visits the sections that it should. -/

namespace DocGrammar

/-! ## What becomes of a section -/

section

variable (results : Section → Except Failure (List Node))

namespace Section

/-- What becomes of a section: it fails as it carries a failure, or it ends with its own result. -/
def outcome (part : Section) : Except Failure (List Node) :=
  match part.failure with
  | some diagnostic => .error (.refused diagnostic)
  | none => results part

/-- Whether a section fails. -/
def fails (part : Section) : Bool := !(part.outcome results).isOk

/-- The nodes of a section: none if it fails. -/
def ownNodes (part : Section) : List Node :=
  match part.outcome results with
  | .ok nodes => nodes
  | .error _ => []

/-- The diagnostic of a section that is dropped. -/
def ownReport? (part : Section) : Option Diagnostic :=
  match part.outcome results with
  | .ok _ => none
  | .error failure => failure.recoverable?

/-- Whether a section fails and no section is dropped for that. -/
def IsFatal (part : Section) : Prop :=
  ∃ failure, part.outcome results = .error failure ∧ failure.recoverable? = none

/-- Whether the rule of a grammar is asked for a section. -/
def isRead (part : Section) : Bool := part.failure.isNone

end Section

/-- The rule that ends with the given results and remembers the sections that it was asked for. -/
def recordingRule (part : Section) : WalkM (List Section) (List Node) := fun state =>
  match results part with
  | .ok nodes => .ok nodes { state with memory := state.memory ++ [part] }
  | .error failure => .error failure { state with memory := state.memory ++ [part] }

/-- A section is read as its outcome says, and the rule is asked unless it carries a failure. -/
theorem sectionNodes_recordingRule (part : Section) (session : Session) (asked : List Section) :
    sectionNodes (recordingRule results) part ⟨session, asked⟩ =
      match part.outcome results with
      | .ok nodes => .ok nodes ⟨session, asked ++ [part].filter Section.isRead⟩
      | .error failure => .error failure ⟨session, asked ++ [part].filter Section.isRead⟩ := by
  cases failure : part.failure with
  | some diagnostic =>
    have unread : [part].filter Section.isRead = [] := by simp [Section.isRead, failure]
    rw [unread, List.append_nil, sectionNodes, Section.outcome, failure]
    rfl
  | none =>
    have read : [part].filter Section.isRead = [part] := by simp [Section.isRead, failure]
    rw [read, sectionNodes, Section.outcome, failure]
    rfl

end

/-! ## The sections that are visited -/

section

variable (results : Section → Except Failure (List Node)) (resume : Section → Bool)

/-- Whether the failure of a section drops a later one: the first has a heading, and all sections
behind it up to the later one are deeper and are none where the grammar resumes. -/
def Drops (parts : List Section) (first later : Nat) : Prop :=
  ∃ part, parts[first]? = some part ∧ part.fails results = true ∧ part.heading.isSome = true ∧
    first < later ∧ ∀ index other, first < index → index ≤ later → parts[index]? = some other →
      part.level < other.level ∧ resume other = false

/-- The indices of the sections that are visited, in order: all but those that the failure of a
visited section drops. -/
structure Visits (parts : List Section) (visited : List Nat) : Prop where
  /-- The sections are visited in order. -/
  ordered : visited.Pairwise (· < ·)
  /-- A section is left out if and only if a visited one drops it. -/
  visits : ∀ index, index ∈ visited ↔
    index < parts.length ∧ ¬∃ first ∈ visited, Drops results resume parts first index

variable {results resume} {parts front rest : List Section} {visited : List Nat}

/-- What drops a section stands before it. -/
theorem Drops.lt {first later : Nat} (drops : Drops results resume parts first later) :
    first < later := by
  obtain ⟨_, _, _, _, before, _⟩ := drops
  exact before

/-- Sections in front change nothing in what drops what. -/
theorem drops_append_iff {first later : Nat} :
    Drops results resume (front ++ rest) (front.length + first) (front.length + later) ↔
      Drops results resume rest first later := by
  have behind : ∀ index, (front ++ rest)[front.length + index]? = rest[index]? := fun index => by
    rw [List.getElem?_append_right (Nat.le_add_right _ _), Nat.add_sub_cancel_left]
  constructor
  · rintro ⟨part, found, fails, headed, before, deeper⟩
    refine ⟨part, (behind first).symm.trans found, fails, headed, by omega, ?_⟩
    intro index other low high at'
    exact deeper (front.length + index) other (by omega) (by omega) ((behind index).trans at')
  · rintro ⟨part, found, fails, headed, before, deeper⟩
    refine ⟨part, (behind first).trans found, fails, headed, by omega, ?_⟩
    intro index other low high at'
    obtain ⟨offset, rfl⟩ : ∃ offset, index = front.length + offset :=
      ⟨index - front.length, by omega⟩
    exact deeper offset other (by omega) (by omega) ((behind offset).symm.trans at')

/-- The sections that are visited are determined by what becomes of them. -/
theorem Visits.unique {other : List Nat} (visits : Visits results resume parts visited)
    (visits' : Visits results resume parts other) : visited = other := by
  have same : ∀ index, index ∈ visited ↔ index ∈ other := by
    intro index
    -- what drops a section stands before it, so the induction is on the index
    induction index using Nat.strongRecOn with
    | ind index ih =>
      rw [visits.visits, visits'.visits]
      refine and_congr_right fun _ => not_congr (exists_congr fun first => ?_)
      exact and_congr_left fun drops => ih first drops.lt
  have nodup : ∀ {indices : List Nat}, indices.Pairwise (· < ·) → indices.Nodup :=
    fun ordered => ordered.imp Nat.ne_of_lt
  have perm : visited.Perm other :=
    (List.perm_ext_iff_of_nodup (nodup visits.ordered) (nodup visits'.ordered)).mpr same
  exact perm.eq_of_pairwise (fun _ _ _ _ below above => absurd below (Nat.lt_asymm above))
    visits.ordered visits'.ordered

/-- The sections visited in a list whose first section drops those in front of the rest. -/
theorem Visits.cons {part : Section} {dropped : List Section}
    (drops : ∀ index < dropped.length + rest.length,
      Drops results resume (part :: (dropped ++ rest)) 0 (index + 1) ↔ index < dropped.length)
    (visits : Visits results resume rest visited) :
    Visits results resume (part :: (dropped ++ rest))
      (0 :: visited.map (dropped.length + 1 + ·)) := by
  have shift : ∀ {first later}, Drops results resume (part :: (dropped ++ rest))
      (dropped.length + 1 + first) (dropped.length + 1 + later) ↔
        Drops results resume rest first later := by
    intro first later
    show Drops results resume ((part :: dropped) ++ rest) ((part :: dropped).length + first)
      ((part :: dropped).length + later) ↔ _
    exact drops_append_iff
  have mem : ∀ {index}, dropped.length + 1 + index ∈
      0 :: visited.map (dropped.length + 1 + ·) ↔ index ∈ visited := by
    intro index
    simp only [List.mem_cons, List.mem_map, Nat.add_left_cancel_iff, exists_eq_right]
    exact or_iff_right (by omega)
  constructor
  · refine List.pairwise_cons.mpr ⟨fun index member => ?_, ?_⟩
    · obtain ⟨_, _, rfl⟩ := List.mem_map.mp member
      omega
    · exact List.pairwise_map.mpr (visits.ordered.imp (by omega))
  · intro index
    rw [List.length_cons, List.length_append]
    by_cases first : index = 0
    · subst first
      refine iff_of_true List.mem_cons_self ⟨by omega, ?_⟩
      rintro ⟨_, _, before⟩
      exact absurd before.lt (Nat.not_lt_zero _)
    by_cases within : index < dropped.length + 1
    · -- the first section drops this one
      obtain ⟨offset, rfl⟩ : ∃ offset, index = offset + 1 := ⟨index - 1, by omega⟩
      refine iff_of_false (fun member => ?_) (fun visited => visited.2 ?_)
      · rcases List.mem_cons.mp member with same | later
        · omega
        · obtain ⟨_, _, same⟩ := List.mem_map.mp later
          omega
      · exact ⟨0, List.mem_cons_self, (drops offset (by omega)).mpr (by omega)⟩
    · obtain ⟨offset, rfl⟩ : ∃ offset, index = dropped.length + 1 + offset :=
        ⟨index - (dropped.length + 1), by omega⟩
      have inside : dropped.length + 1 + offset < dropped.length + rest.length + 1 ↔
          offset < rest.length := by omega
      rw [mem, visits.visits, inside]
      refine and_congr_right fun bound => not_congr ⟨?_, ?_⟩
      · rintro ⟨first, member, before⟩
        exact ⟨_, mem.mpr member, shift.mpr before⟩
      · rintro ⟨first, member, before⟩
        rcases List.mem_cons.mp member with rfl | later
        · have drops' := drops (dropped.length + offset) (by omega)
          rw [Nat.add_right_comm] at drops'
          exact absurd (drops'.mp before) (by omega)
        · obtain ⟨inner, found, rfl⟩ := List.mem_map.mp later
          exact ⟨inner, found, shift.mp before⟩

/-- A section that does not fail drops nothing. -/
theorem Visits.read {part : Section} (sound : part.fails results = false)
    (visits : Visits results resume rest visited) :
    Visits results resume (part :: rest) (0 :: visited.map (1 + ·)) := by
  have drops : ∀ index < ([] : List Section).length + rest.length,
      Drops results resume (part :: ([] ++ rest)) 0 (index + 1) ↔
        index < ([] : List Section).length := by
    refine fun index _ => iff_of_false ?_ (Nat.not_lt_zero index)
    rintro ⟨_, found, fails, _⟩
    cases found
    rw [sound] at fails
    cases fails
  have whole := visits.cons drops
  rwa [List.nil_append, List.length_nil, Nat.zero_add] at whole

/-- The first elements of a list that all satisfy a condition. -/
theorem lt_length_takeWhile_iff {α : Type} {holds : α → Bool} {list : List α} {index : Nat}
    (bound : index < list.length) :
    index < (list.takeWhile holds).length ↔
      ∀ offset ≤ index, ∀ value, list[offset]? = some value → holds value = true := by
  induction list generalizing index with
  | nil => exact absurd bound (Nat.not_lt_zero _)
  | cons first others ih =>
    cases here : holds first with
    | false =>
      rw [List.takeWhile_cons_of_neg (by rw [here]; exact Bool.false_ne_true)]
      refine iff_of_false (Nat.not_lt_zero _) fun all => ?_
      rw [all 0 (Nat.zero_le _) first rfl] at here
      cases here
    | true =>
      rw [List.takeWhile_cons_of_pos here, List.length_cons]
      cases index with
      | zero =>
        refine iff_of_true (Nat.succ_pos _) fun offset low value found => ?_
        rw [Nat.le_zero.mp low] at found
        cases found
        exact here
      | succ index =>
        rw [Nat.succ_lt_succ_iff, ih (Nat.lt_of_succ_lt_succ bound)]
        constructor
        · intro all offset low value found
          cases offset with
          | zero => cases found; exact here
          | succ offset => exact all offset (Nat.le_of_succ_le_succ low) value found
        · intro all offset low value found
          exact all (offset + 1) (Nat.succ_le_succ low) value found

/-- The first section drops those directly behind it that are below it, if it fails. -/
theorem drops_zero_iff {part : Section} {others : List Section} {index : Nat}
    (fails : part.fails results = true) (bound : index < others.length) :
    Drops results resume (part :: others) 0 (index + 1) ↔
      index < (others.takeWhile (part.isBelow resume)).length := by
  rw [lt_length_takeWhile_iff bound]
  constructor
  · rintro ⟨_, found, _, headed, _, deeper⟩ offset low other at'
    cases found
    obtain ⟨deeper, unresumed⟩ := deeper (offset + 1) other (by omega) (by omega) at'
    rw [Section.isBelow, headed, decide_eq_true deeper, unresumed]
    rfl
  · intro below
    -- to be below a section says three things: it is headed, deeper and no point of resumption
    have split : ∀ offset ≤ index, ∀ other, others[offset]? = some other →
        part.heading.isSome = true ∧ part.level < other.level ∧ resume other = false := by
      intro offset low other at'
      have isBelow := below offset low other at'
      rw [Section.isBelow, Bool.and_eq_true, Bool.and_eq_true, decide_eq_true_eq,
        Bool.not_eq_true'] at isBelow
      exact ⟨isBelow.1.1, isBelow.1.2, isBelow.2⟩
    have headed := (split index (Nat.le_refl index) _ (List.getElem?_eq_getElem bound)).1
    refine ⟨part, rfl, fails, headed, Nat.succ_pos _, fun later other low high at' => ?_⟩
    obtain ⟨offset, rfl⟩ : ∃ offset, later = offset + 1 := ⟨later - 1, by omega⟩
    exact (split offset (by omega) other at').2

/-- A section that fails drops those directly behind it that are below it. -/
theorem Visits.dropped {part : Section} {others : List Section}
    (fails : part.fails results = true)
    (visits : Visits results resume (others.dropWhile (part.isBelow resume)) visited) :
    Visits results resume (part :: others)
      (0 :: visited.map ((others.takeWhile (part.isBelow resume)).length + 1 + ·)) := by
  have split : others.takeWhile (part.isBelow resume) ++ others.dropWhile (part.isBelow resume) =
      others := List.takeWhile_append_dropWhile
  have length := congrArg List.length split
  rw [List.length_append] at length
  have drops : ∀ index < (others.takeWhile (part.isBelow resume)).length +
      (others.dropWhile (part.isBelow resume)).length,
      Drops results resume (part :: (others.takeWhile (part.isBelow resume) ++
        others.dropWhile (part.isBelow resume))) 0 (index + 1) ↔
      index < (others.takeWhile (part.isBelow resume)).length := by
    intro index bound
    rw [length] at bound
    rw [split]
    exact drops_zero_iff fails bound
  have whole := visits.cons drops
  rwa [split] at whole

end

/-! ## Walks over visited sections -/

section

variable (results : Section → Except Failure (List Node)) (resume : Section → Bool)

/-- A walk over some sections visits the given ones: it yields their nodes and reports the
diagnostics of those that fail, and the rule is asked for those that carry no failure. At the first
one whose failure drops no section the walk ends. -/
structure WalksOver (parts seen : List Section) : Prop where
  /-- The walk visits all of the sections, if it drops those of them that fail. -/
  finishes : (∀ part ∈ seen, ¬part.IsFatal results) →
    ∀ file nesting diagnostics events asked, ∃ events',
      walkSections (recordingRule results) resume parts
          ⟨⟨file, nesting, diagnostics, events⟩, asked⟩ =
        .ok (seen.flatMap (Section.ownNodes results))
          ⟨⟨file, nesting, diagnostics ++ seen.filterMap (Section.ownReport? results), events'⟩,
            asked ++ seen.filter Section.isRead⟩
  /-- The walk visits the sections up to the first one that fails for good, with its failure. -/
  stops : ∀ before stop behind failure, seen = before ++ stop :: behind →
    (∀ part ∈ before, ¬part.IsFatal results) → stop.outcome results = .error failure →
    failure.recoverable? = none →
    ∀ file nesting diagnostics events asked, ∃ events',
      walkSections (recordingRule results) resume parts
          ⟨⟨file, nesting, diagnostics, events⟩, asked⟩ =
        .error failure
          ⟨⟨file, nesting, diagnostics ++ before.filterMap (Section.ownReport? results), events'⟩,
            asked ++ (before ++ [stop]).filter Section.isRead⟩

variable {results resume} {part : Section} {others seen : List Section}

/-- No sections are visited where there are none. -/
theorem WalksOver.nil : WalksOver results resume [] [] := by
  constructor
  · intro _ file nesting diagnostics events asked
    refine ⟨events, ?_⟩
    rw [walkSections, List.filterMap_nil, List.append_nil, List.filter_nil, List.append_nil]
    rfl
  · intro before stop behind failure split
    exact absurd split (by simp)

/-- Behind a section that succeeds the walk visits those behind it. -/
theorem WalksOver.read {nodes : List Node} (ends : part.outcome results = .ok nodes)
    (walks : WalksOver results resume others seen) :
    WalksOver results resume (part :: others) (part :: seen) := by
  have own : part.ownNodes results = nodes := by rw [Section.ownNodes, ends]
  have silent : part.ownReport? results = none := by rw [Section.ownReport?, ends]
  have reads : ∀ file nesting diagnostics events asked,
      sectionNodes (recordingRule results) part ⟨⟨file, nesting, diagnostics, events⟩, asked⟩ =
        .ok nodes
          ⟨⟨file, nesting, diagnostics, events⟩, asked ++ [part].filter Section.isRead⟩ := by
    intro file nesting diagnostics events asked
    rw [sectionNodes_recordingRule, ends]
  constructor
  · intro sound file nesting diagnostics events asked
    obtain ⟨events', behind⟩ := walks.finishes
      (fun part member => sound part (List.mem_cons_of_mem _ member)) file nesting diagnostics
      events (asked ++ [part].filter Section.isRead)
    refine ⟨events', ?_⟩
    rw [walkSections_of_ok (reads file nesting diagnostics events asked), behind,
      List.flatMap_cons, own, List.filterMap_cons_none silent, List.append_assoc,
      ← List.filter_append, List.singleton_append]
  · -- the walk stops at a section behind this one, since this one succeeds
    intro before stop behind failure split sound fails fatal file nesting diagnostics events asked
    cases before with
    | nil =>
      cases split
      rw [ends] at fails
      cases fails
    | cons first before =>
      cases split
      obtain ⟨events', ending⟩ := walks.stops before stop behind failure rfl
        (fun part member => sound part (List.mem_cons_of_mem _ member)) fails fatal file nesting
        diagnostics events (asked ++ [part].filter Section.isRead)
      refine ⟨events', ?_⟩
      rw [walkSections_of_ok (reads file nesting diagnostics events asked), ending,
        List.filterMap_cons_none silent, List.append_assoc, ← List.filter_append,
        List.singleton_append, List.cons_append]

/-- Behind a section that fails the walk visits those that are not below it. -/
theorem WalksOver.dropped {failure : Failure} {diagnostic : Diagnostic}
    (ends : part.outcome results = .error failure)
    (recoverable : failure.recoverable? = some diagnostic)
    (walks : WalksOver results resume (others.dropWhile (part.isBelow resume)) seen) :
    WalksOver results resume (part :: others) (part :: seen) := by
  have own : part.ownNodes results = [] := by rw [Section.ownNodes, ends]
  have report : part.ownReport? results = some diagnostic := by
    rw [Section.ownReport?, ends]
    exact recoverable
  have steps : ∀ file nesting diagnostics events asked, ∃ events',
      walkSections (recordingRule results) resume (part :: others)
          ⟨⟨file, nesting, diagnostics, events⟩, asked⟩ =
        walkSections (recordingRule results) resume (others.dropWhile (part.isBelow resume))
          ⟨⟨file, nesting, diagnostics ++ [diagnostic], events'⟩,
            asked ++ [part].filter Section.isRead⟩ := by
    intro file nesting diagnostics events asked
    have reads := sectionNodes_recordingRule results part ⟨file, nesting, diagnostics, events⟩ asked
    rw [ends] at reads
    obtain ⟨events', reports⟩ := exists_reportDropped part diagnostic
      (others.takeWhile (part.isBelow resume)).length file nesting diagnostics events
      (asked ++ [part].filter Section.isRead)
    exact ⟨events', walkSections_of_dropped reads recoverable reports⟩
  constructor
  · intro sound file nesting diagnostics events asked
    obtain ⟨middle, step⟩ := steps file nesting diagnostics events asked
    obtain ⟨events', behind⟩ := walks.finishes
      (fun part member => sound part (List.mem_cons_of_mem _ member)) file nesting
      (diagnostics ++ [diagnostic]) middle (asked ++ [part].filter Section.isRead)
    refine ⟨events', ?_⟩
    rw [step, behind, List.flatMap_cons, own, List.nil_append, List.filterMap_cons_some report,
      List.append_assoc, List.append_assoc, ← List.filter_append, List.singleton_append,
      List.singleton_append]
  · intro before stop behind failure' split sound fails fatal file nesting diagnostics events asked
    cases before with
    | nil =>
      cases split
      -- the first section is dropped, so the walk does not end there
      cases ends.symm.trans fails
      rw [recoverable] at fatal
      cases fatal
    | cons first before =>
      cases split
      obtain ⟨middle, step⟩ := steps file nesting diagnostics events asked
      obtain ⟨events', ending⟩ := walks.stops before stop behind failure' rfl
        (fun part member => sound part (List.mem_cons_of_mem _ member)) fails fatal file nesting
        (diagnostics ++ [diagnostic]) middle (asked ++ [part].filter Section.isRead)
      refine ⟨events', ?_⟩
      rw [step, ending, List.filterMap_cons_some report, List.append_assoc, List.append_assoc,
        ← List.filter_append, List.singleton_append, List.singleton_append, List.cons_append]

/-- The walk ends with a section that fails for good, whatever stands behind it. -/
theorem WalksOver.fatal {failure : Failure} (ends : part.outcome results = .error failure)
    (fatal : failure.recoverable? = none) :
    WalksOver results resume (part :: others) (part :: seen) := by
  have here : part.IsFatal results := ⟨failure, ends, fatal⟩
  constructor
  · exact fun sound => absurd here (sound part List.mem_cons_self)
  · intro before stop behind failure' split sound fails _ file nesting diagnostics events asked
    cases before with
    | cons first before =>
      cases split
      exact absurd here (sound _ List.mem_cons_self)
    | nil =>
      cases split
      cases ends.symm.trans fails
      have reads := sectionNodes_recordingRule results part ⟨file, nesting, diagnostics, events⟩
        asked
      rw [ends] at reads
      refine ⟨events, ?_⟩
      rw [walkSections_of_fatal reads fatal, List.filterMap_nil, List.append_nil, List.nil_append]

end

/-! ## The walk as specified -/

/-- The walk goes on at the next section that is not below the failed one. -/
theorem drop_nextSibling {resume : Section → Bool} {parts : List Section} {part : Section}
    {index : Nat} (found : parts[index]? = some part) :
    parts.drop (nextSibling resume parts index) =
      (parts.drop (index + 1)).dropWhile (part.isBelow resume) := by
  have cut := List.prefix_iff_eq_append.mp
    (List.takeWhile_prefix (l := parts.drop (index + 1)) (part.isBelow resume))
  rw [nextSibling, found, ← List.drop_drop]
  exact List.append_cancel_left (cut.trans List.takeWhile_append_dropWhile.symm)

/-- The sections with some indices. -/
def sectionsAt (parts : List Section) (indices : List Nat) : List Section :=
  indices.filterMap (parts[·]?)

/-- The sections visited behind some sections are those visited in the rest. -/
theorem sectionsAt_map (front rest : List Section) (visited : List Nat) :
    sectionsAt (front ++ rest) (visited.map (front.length + ·)) = sectionsAt rest visited := by
  rw [sectionsAt, List.filterMap_map]
  refine List.filterMap_congr fun index _ => ?_
  show (front ++ rest)[front.length + index]? = rest[index]?
  rw [List.getElem?_append_right (Nat.le_add_right _ _), Nat.add_sub_cancel_left]

/-- A walk over some sections visits all of them but those that a visited one drops when it fails:
the deeper ones behind it up to one where the grammar resumes, if it has a heading. There is only
one such selection of sections. If none of them fails for good, the walk yields the nodes of those
that succeed and reports the diagnostics of those that fail, both in order. Otherwise it ends at
the first that does, and has reported the diagnostics of those before it. A section that carries a
failure fails with it, and the rule of the grammar is not asked for it. -/
theorem walkSections_recovers (results : Section → Except Failure (List Node))
    (resume : Section → Bool) (parts : List Section) :
    ∃ visited, Visits results resume parts visited ∧
      (∀ other, Visits results resume parts other → other = visited) ∧
      WalksOver results resume parts (sectionsAt parts visited) := by
  -- the selection is unique by itself, so one that the walk follows is to be found
  suffices main : ∃ visited, Visits results resume parts visited ∧
      WalksOver results resume parts (sectionsAt parts visited) by
    obtain ⟨visited, visits, walks⟩ := main
    exact ⟨visited, visits, fun other visits' => visits'.unique visits, walks⟩
  induction parts using walk_induction resume with
  | nil =>
    refine ⟨[], ⟨.nil, fun index => ?_⟩, WalksOver.nil⟩
    exact iff_of_false List.not_mem_nil fun inside => absurd inside.1 (Nat.not_lt_zero _)
  | cons part others inOthers inRest =>
    cases ends : part.outcome results with
    | ok nodes =>
      obtain ⟨visited, visits, walks⟩ := inOthers
      have sound : part.fails results = false := by rw [Section.fails, ends]; rfl
      refine ⟨_, visits.read sound, ?_⟩
      have seen : sectionsAt (part :: others) (0 :: visited.map (1 + ·)) =
          part :: sectionsAt others visited :=
        congrArg (part :: ·) (sectionsAt_map [part] others visited)
      rw [seen]
      exact walks.read ends
    | error failure =>
      have fails : part.fails results = true := by rw [Section.fails, ends]; rfl
      obtain ⟨visited, visits, walks⟩ := inRest
      refine ⟨_, visits.dropped fails, ?_⟩
      -- the walk goes on behind the sections that are dropped with the failed one
      have split : others = others.takeWhile (part.isBelow resume) ++
          others.dropWhile (part.isBelow resume) := List.takeWhile_append_dropWhile.symm
      have seen : sectionsAt (part :: others)
          (0 :: visited.map ((others.takeWhile (part.isBelow resume)).length + 1 + ·)) =
            part :: sectionsAt (others.dropWhile (part.isBelow resume)) visited := by
        have behind := sectionsAt_map (part :: others.takeWhile (part.isBelow resume))
          (others.dropWhile (part.isBelow resume)) visited
        rw [List.cons_append, ← split] at behind
        exact congrArg (part :: ·) behind
      rw [seen]
      cases recoverable : failure.recoverable? with
      | some diagnostic => exact walks.dropped ends recoverable
      | none => exact .fatal ends recoverable

end DocGrammar
