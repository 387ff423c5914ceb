import DocGrammar.Fixture.Diff
import Mathlib.Data.List.Basic

/-! # Differences between equal and unequal texts

The edits between two texts keep common runs and replace what stands between these. The runs are
real, and they stand in order, so if nothing is replaced the texts are equal. Between equal texts
the longest run is searched for in a symmetric table, in which no entry exceeds the one on the
diagonal in its row: the first longest run has the same place in both, and it widens to the whole
text.

* **`CommonRun.Matches`**, **`RunsBetween`** — runs that two texts share, one behind the other.
* **`matches_longestRun`**, **`runsBetween_matchingRuns`** — the runs that are found.
* **`longestRun_self`** — the longest run of a text with itself is the text.
* **`unifiedDiff_eq_nil_iff`** — exactly equal texts have no difference. -/

namespace DocGrammar

variable {popular : String → Bool} {first second lines others : List String}

/-! ## Common starts -/

/-- The number of lines that two lists start with in common, none of them popular. -/
def sharedLength (popular : String → Bool) : List String → List String → Nat
  | line :: lines, other :: others =>
    if line = other && !popular other then sharedLength popular lines others + 1 else 0
  | _, _ => 0

theorem sharedLength_nil_left (popular : String → Bool) (others : List String) :
    sharedLength popular [] others = 0 := rfl

theorem sharedLength_nil_right (popular : String → Bool) (lines : List String) :
    sharedLength popular lines [] = 0 := by
  cases lines <;> rfl

theorem sharedLength_cons (popular : String → Bool) (line other : String)
    (lines others : List String) : sharedLength popular (line :: lines) (other :: others) =
      if line = other && !popular other then sharedLength popular lines others + 1 else 0 := rfl

/-- Lists that do not both have a first line share nothing. -/
theorem sharedLength_of_apart (apart : ∀ line lines other others, first = line :: lines →
    second = other :: others → False) : sharedLength popular first second = 0 := by
  cases first with
  | nil => rfl
  | cons line lines =>
    cases second with
    | nil => rfl
    | cons other others => exact (apart line lines other others rfl rfl).elim

/-- What is counted as common stands at the start of both lists. -/
theorem exists_of_sharedLength (popular : String → Bool) (first second : List String) :
    ∃ common rest otherRest, first = common ++ rest ∧ second = common ++ otherRest ∧
      sharedLength popular first second = common.length := by
  fun_induction sharedLength popular first second with
  | case1 line lines other others holds ih =>
    obtain ⟨common, rest, otherRest, rfl, rfl, counted⟩ := ih
    obtain rfl : line = other := by simpa using (Bool.and_eq_true_iff.mp holds).1
    exact ⟨line :: common, rest, otherRest, rfl, rfl, by rw [counted, List.length_cons]⟩
  | case2 line lines other others => exact ⟨[], _, _, rfl, rfl, rfl⟩
  | case3 first second => exact ⟨[], _, _, rfl, rfl, rfl⟩

/-- Without popular lines, all lines that are common are counted. -/
theorem commonLength_eq_sharedLength (first second : List String) :
    commonLength first second = sharedLength (fun _ => false) first second := by
  fun_induction commonLength first second with
  | case1 line lines others ih => simp [sharedLength_cons, ih]
  | case2 line lines other others differs => simp [sharedLength_cons, differs]
  | case3 first second apart => exact (sharedLength_of_apart apart).symm

theorem commonLength_self (lines : List String) : commonLength lines lines = lines.length := by
  induction lines with
  | nil => rfl
  | cons line lines ih => rw [commonLength, if_pos rfl, ih, List.length_cons]

theorem sharedLength_comm (first second : List String) :
    sharedLength popular first second = sharedLength popular second first := by
  fun_induction sharedLength popular first second with
  | case1 line lines other others holds ih =>
    obtain ⟨same, plain⟩ := Bool.and_eq_true_iff.mp holds
    obtain rfl : line = other := of_decide_eq_true same
    rw [sharedLength_cons, if_pos holds, ih]
  | case2 line lines other others differs =>
    have swapped : ¬(decide (other = line) && !popular line) = true := by
      intro holds
      obtain ⟨same, plain⟩ := Bool.and_eq_true_iff.mp holds
      obtain rfl : other = line := of_decide_eq_true same
      exact differs holds
    rw [sharedLength_cons, if_neg swapped]
  | case3 first second apart =>
    exact (sharedLength_of_apart fun _ _ _ _ here there => apart _ _ _ _ there here).symm

/-- A list shares no more with another than with itself. -/
theorem sharedLength_le_self (first second : List String) :
    sharedLength popular first second ≤ sharedLength popular first first := by
  fun_induction sharedLength popular first second with
  | case1 line lines other others holds ih =>
    obtain ⟨same, plain⟩ := Bool.and_eq_true_iff.mp holds
    obtain rfl : line = other := of_decide_eq_true same
    rw [sharedLength_cons, if_pos holds]
    exact Nat.succ_le_succ ih
  | case2 => exact Nat.zero_le _
  | case3 => exact Nat.zero_le _

/-! ## Rows of the table -/

/-- The numbers of lines that end in common behind `ending` and behind each start of `others`. The
lines before the latter are given from their end, and so is `ending`. -/
def runRow (popular : String → Bool) (ending : List String) : List String → List String → List Nat
  | _, [] => []
  | before, other :: others =>
    sharedLength popular ending (other :: before) :: runRow popular ending (other :: before) others

/-- Nothing ends in common at the start of a list. -/
theorem runRow_nil (popular : String → Bool) (before others : List String) :
    runRow popular [] before others = others.map fun _ => 0 := by
  induction others generalizing before with
  | nil => rfl
  | cons other others ih => rw [runRow, ih, List.map_cons, sharedLength_nil_left]

/-- The next row is computed from the row above. -/
theorem runLengths_runRow (popular : String → Bool) (line : String) (ending others : List String) :
    runLengths popular line others (runRow popular ending [] others) =
      runRow popular (line :: ending) [] others := by
  -- the entry in front of a row is that of the lines before
  have general : ∀ before,
      List.zipWith (fun other length => if line = other && !popular other then length + 1 else 0)
        others (sharedLength popular ending before :: runRow popular ending before others) =
      runRow popular (line :: ending) before others := by
    induction others with
    | nil => exact fun _ => rfl
    | cons other others ih =>
      intro before
      rw [runRow, runRow, List.zipWith_cons_cons, ih (other :: before)]
      congr 1
  have start : sharedLength popular ending [] = 0 := by
    cases ending <;> rfl
  rw [runLengths, ← general, start]

/-! ## Runs that two texts share -/

/-- Whether a run stands in two texts: behind some lines in each. -/
def CommonRun.Matches (run : CommonRun) (first second : List String) : Prop :=
  ∃ front otherFront common back otherBack, first = front ++ (common ++ back) ∧
    second = otherFront ++ (common ++ otherBack) ∧
    run = ⟨front.length, otherFront.length, common.length⟩

namespace CommonRun

variable {run next : CommonRun}

theorem matches_empty (first second : List String) : Matches ⟨0, 0, 0⟩ first second :=
  ⟨[], [], [], first, second, rfl, rfl, rfl⟩

/-- What two lists end with in common is a run. -/
theorem matches_ending (popular : String → Bool) (ending before rest others : List String) :
    Matches ⟨ending.length - sharedLength popular ending before,
      before.length - sharedLength popular ending before,
      sharedLength popular ending before⟩ (ending.reverse ++ rest) (before.reverse ++ others) := by
  obtain ⟨common, front, otherFront, rfl, rfl, counted⟩ :=
    exists_of_sharedLength popular ending before
  refine ⟨front.reverse, otherFront.reverse, common.reverse, rest, others, ?_, ?_, ?_⟩
  · rw [List.reverse_append, List.append_assoc]
  · rw [List.reverse_append, List.append_assoc]
  · simp [counted]

/-- A run is widened by what the texts share on both sides of it. -/
theorem Matches.widen (found : run.Matches first second) :
    (run.widen first second).Matches first second := by
  obtain ⟨front, otherFront, common, back, otherBack, rfl, rfl, rfl⟩ := found
  obtain ⟨left, rest, otherRest, start, otherStart, leftCount⟩ :=
    exists_of_sharedLength (fun _ => false) front.reverse otherFront.reverse
  obtain ⟨right, tail, otherTail, rfl, rfl, rightCount⟩ :=
    exists_of_sharedLength (fun _ => false) back otherBack
  have whole : front = rest.reverse ++ left.reverse := by
    rw [← List.reverse_append, ← start, List.reverse_reverse]
  have otherWhole : otherFront = otherRest.reverse ++ left.reverse := by
    rw [← List.reverse_append, ← otherStart, List.reverse_reverse]
  have behind : ∀ lines own : List String,
      (lines ++ (common ++ own)).drop (lines.length + common.length) = own := by
    intro lines own
    rw [← List.length_append, ← List.append_assoc, List.drop_left]
  -- in front the texts are compared from their ends, hence the reversed lists
  refine ⟨rest.reverse, otherRest.reverse, left.reverse ++ (common ++ right), tail, otherTail,
    ?_, ?_, ?_⟩
  · simp only [whole, List.append_assoc]
  · simp only [otherWhole, List.append_assoc]
  · simp only [CommonRun.widen, List.take_left, behind, commonLength_eq_sharedLength, leftCount,
      rightCount]
    simp [whole, otherWhole, Nat.add_assoc]

/-- Runs that follow each other in both texts are one run. -/
theorem Matches.join (found : run.Matches first second) (later : next.Matches first second)
    (follows : run.first + run.size = next.first) (alike : run.second + run.size = next.second) :
    Matches ⟨run.first, run.second, run.size + next.size⟩ first second := by
  obtain ⟨front, otherFront, common, back, otherBack, rfl, rfl, rfl⟩ := found
  obtain ⟨front', otherFront', common', back', otherBack', split, otherSplit, rfl⟩ := later
  rw [← List.append_assoc] at split otherSplit
  obtain ⟨rfl, rfl⟩ := List.append_inj split (by simpa using follows)
  obtain ⟨rfl, rfl⟩ := List.append_inj otherSplit (by simpa using alike)
  refine ⟨front, otherFront, common ++ common', back', otherBack', ?_, ?_, ?_⟩
  · rw [List.append_assoc]
  · rw [List.append_assoc]
  · simp only [List.length_append]

/-- A run in two texts is a run in longer ones. -/
theorem Matches.shift (found : run.Matches first second) (before after otherBefore otherAfter) :
    Matches ⟨before.length + run.first, otherBefore.length + run.second, run.size⟩
      (before ++ (first ++ after)) (otherBefore ++ (second ++ otherAfter)) := by
  obtain ⟨front, otherFront, common, back, otherBack, rfl, rfl, rfl⟩ := found
  refine ⟨before ++ front, otherBefore ++ otherFront, common, back ++ after,
    otherBack ++ otherAfter, ?_, ?_, ?_⟩
  · simp only [List.append_assoc]
  · simp only [List.append_assoc]
  · simp only [List.length_append]

end CommonRun

/-! ## The longest run -/

/-- The longer of a run and those of a row is a run of both texts. -/
theorem matches_longerRun {best : CommonRun} {ending rest : List String} {row : Nat}
    (before : List String) (counted : ending.length = row + 1)
    (found : best.Matches (ending.reverse ++ rest) (before.reverse ++ others)) :
    (longerRun row before.length (runRow popular ending before others) best).Matches
      (ending.reverse ++ rest) (before.reverse ++ others) := by
  induction others generalizing before best with
  | nil => exact found
  | cons other others ih =>
    have moved : before.reverse ++ other :: others = (other :: before).reverse ++ others := by
      rw [List.reverse_cons, List.append_assoc, List.singleton_append]
    rw [runRow, longerRun, moved]
    rw [moved] at found
    refine ih (other :: before) ?_
    split
    · have own := CommonRun.matches_ending popular ending (other :: before) rest others
      rwa [counted] at own
    · exact found

/-- The longest run from a row on is a run of both texts. -/
theorem matches_longestFrom (popular : String → Bool) (ending lines : List String)
    {best : CommonRun} (found : best.Matches (ending.reverse ++ lines) second) :
    (longestFrom popular second ending.length (runRow popular ending [] second) lines
      best).Matches (ending.reverse ++ lines) second := by
  induction lines generalizing ending best with
  | nil => exact found
  | cons line lines ih =>
    have moved : ending.reverse ++ line :: lines = (line :: ending).reverse ++ lines := by
      rw [List.reverse_cons, List.append_assoc, List.singleton_append]
    rw [longestFrom, runLengths_runRow]
    rw [moved] at found ⊢
    exact ih _ (matches_longerRun [] rfl found)

/-- The longest run is a run of both texts. -/
theorem matches_longestRun (popular : String → Bool) (first second : List String) :
    (longestRun popular first second).Matches first second := by
  have start := matches_longestFrom popular [] first (CommonRun.matches_empty first second)
  rw [runRow_nil] at start
  exact start.widen

/-! ## The longest run of a text with itself -/

/-- The number of unpopular lines that two starts of a text, of given lengths, end with in
common. -/
def selfEntry (popular : String → Bool) (text : List String) (row column : Nat) : Nat :=
  sharedLength popular (text.take row).reverse (text.take column).reverse

/-- Whether a run is at least as long as the entries of the rows up to `row`, and as those of the
next one up to `column`. -/
def CommonRun.Exceeds (popular : String → Bool) (text : List String) (row column : Nat)
    (run : CommonRun) : Prop :=
  (∀ above ≤ row, ∀ any, selfEntry popular text above any ≤ run.size) ∧
    ∀ before ≤ column, selfEntry popular text (row + 1) before ≤ run.size

/-- An entry beside the diagonal has already been met in the rows above, or does not exceed the
one on the diagonal. -/
theorem CommonRun.Exceeds.column_eq {text : List String} {row column : Nat} {run : CommonRun}
    (exceeds : run.Exceeds popular text row column)
    (longer : run.size < selfEntry popular text (row + 1) (column + 1)) : column = row := by
  by_contra differs
  rcases Nat.lt_or_gt_of_ne differs with left | right
  · have met := exceeds.1 (column + 1) left (row + 1)
    rw [selfEntry, sharedLength_comm] at met
    exact absurd longer (Nat.not_lt.mpr met)
  · have met := exceeds.2 (row + 1) right
    have bound : selfEntry popular text (row + 1) (column + 1) ≤
        selfEntry popular text (row + 1) (row + 1) := sharedLength_le_self _ _
    exact absurd longer (Nat.not_lt.mpr (Nat.le_trans bound met))

/-- The longer of a run and those of a row lies on the diagonal. -/
theorem diagonal_longerRun (text before : List String) {best : CommonRun} {row : Nat}
    (split : text = before.reverse ++ others)
    (exceeds : best.Exceeds popular text row before.length) (same : best.first = best.second) :
    let longer := longerRun row before.length
      (runRow popular (text.take (row + 1)).reverse before others) best
    longer.Exceeds popular text row text.length ∧ longer.first = longer.second := by
  induction others generalizing before best with
  | nil =>
    have counted : before.length = text.length := by simp [split]
    rw [runRow, longerRun, ← counted]
    exact ⟨exceeds, same⟩
  | cons other others ih =>
    have moved : text = (other :: before).reverse ++ others := by
      rw [split, List.reverse_cons, List.append_assoc, List.singleton_append]
    -- the entry that is looked at is the one on the diagonal of the two lists
    have taken : (other :: before) = (text.take (before.length + 1)).reverse := by
      rw [moved, List.take_left' (by simp), List.reverse_reverse]
    have entry : sharedLength popular (text.take (row + 1)).reverse (other :: before) =
        selfEntry popular text (row + 1) (before.length + 1) := by
      rw [taken, selfEntry]
    rw [runRow, longerRun, entry]
    generalize chosen : (if best.size < selfEntry popular text (row + 1) (before.length + 1) then
      (⟨row + 1 - selfEntry popular text (row + 1) (before.length + 1),
        before.length + 1 - selfEntry popular text (row + 1) (before.length + 1),
        selfEntry popular text (row + 1) (before.length + 1)⟩ : CommonRun) else best) = longer
    -- the longer of the two runs is at least as long as either
    have grown : best.size ≤ longer.size ∧
        selfEntry popular text (row + 1) (before.length + 1) ≤ longer.size := by
      rw [← chosen]
      split
      · next less => exact ⟨Nat.le_of_lt less, Nat.le_refl _⟩
      · next bound => exact ⟨Nat.le_refl _, Nat.not_lt.mp bound⟩
    refine ih (other :: before) moved ⟨fun above le any => ?_, fun column le => ?_⟩ ?_
    · exact Nat.le_trans (exceeds.1 above le any) grown.1
    · rcases Nat.le_succ_iff.mp le with earlier | rfl
      · exact Nat.le_trans (exceeds.2 column earlier) grown.1
      · exact grown.2
    · rw [← chosen]
      split
      · next less => rw [exceeds.column_eq less]
      · exact same

/-- The longest run from a row on lies on the diagonal. -/
theorem diagonal_longestFrom (text ending : List String) {best : CommonRun}
    (split : text = ending.reverse ++ lines)
    (exceeds : ∀ above ≤ ending.length, ∀ any, selfEntry popular text above any ≤ best.size)
    (same : best.first = best.second) :
    let longest := longestFrom popular text ending.length (runRow popular ending [] text) lines best
    longest.first = longest.second := by
  induction lines generalizing ending best with
  | nil => exact same
  | cons line lines ih =>
    have moved : text = (line :: ending).reverse ++ lines := by
      rw [split, List.reverse_cons, List.append_assoc, List.singleton_append]
    have taken : (line :: ending) = (text.take (ending.length + 1)).reverse := by
      rw [moved, List.take_left' (by simp), List.reverse_reverse]
    have start : best.Exceeds popular text ending.length 0 := by
      refine ⟨exceeds, fun column le => ?_⟩
      rw [Nat.le_zero.mp le, selfEntry, List.take_zero, List.reverse_nil, sharedLength_nil_right]
      exact Nat.zero_le _
    obtain ⟨rows, diagonal⟩ := diagonal_longerRun text [] rfl start same
    rw [longestFrom, runLengths_runRow]
    rw [← taken] at rows diagonal
    refine ih (line :: ending) moved (fun above le any => ?_) diagonal
    rcases Nat.le_succ_iff.mp le with earlier | rfl
    · exact rows.1 above earlier any
    · -- behind the last column the entries are those of the last column
      by_cases inside : any ≤ text.length
      · exact rows.2 any inside
      · have last : text.take any = text.take text.length := by
          rw [List.take_length, List.take_of_length_le (Nat.le_of_not_le inside)]
        rw [selfEntry, last]
        exact rows.2 text.length (Nat.le_refl _)

/-- The longest run of a text with itself is the whole text. -/
theorem longestRun_self (popular : String → Bool) (text : List String) :
    longestRun popular text text = ⟨0, 0, text.length⟩ := by
  have zero : ∀ above ≤ ([] : List String).length, ∀ any,
      selfEntry popular text above any ≤ (⟨0, 0, 0⟩ : CommonRun).size := by
    intro above le any
    have none : selfEntry popular text 0 any = 0 := sharedLength_nil_left popular _
    exact Nat.le_of_eq (Nat.le_zero.mp le ▸ none)
  have diagonal := diagonal_longestFrom text [] rfl zero rfl
  have found := matches_longestFrom popular [] text (CommonRun.matches_empty text text)
  rw [runRow_nil] at found
  obtain ⟨front, otherFront, common, back, otherBack, split, otherSplit, place⟩ := found
  rw [List.length_nil] at diagonal place
  rw [runRow_nil, place] at diagonal
  -- the run has the same place in both texts, so it has the same lines around it
  obtain ⟨rfl, _⟩ := List.append_inj (split.symm.trans otherSplit) diagonal
  have behind : (front ++ (common ++ back)).drop (front.length + common.length) = back := by
    rw [← List.length_append, ← List.append_assoc, List.drop_left]
  rw [longestRun, place, CommonRun.widen, show text = front ++ (common ++ back) from split]
  simp only [List.take_left, behind, commonLength_self, List.length_reverse, List.length_append,
    CommonRun.mk.injEq]
  omega

/-! ## All common runs -/

/-- Runs of two texts one behind the other, from some indices on and up to others. -/
inductive RunsBetween (first second : List String) :
    Nat → Nat → Nat → Nat → List CommonRun → Prop
  /-- There are no runs. -/
  | nil {start otherStart stop otherStop : Nat} (le : start ≤ stop)
    (otherLe : otherStart ≤ otherStop) :
      RunsBetween first second start otherStart stop otherStop []
  /-- The others stand behind the first. -/
  | cons {start otherStart stop otherStop : Nat} {run : CommonRun} {runs : List CommonRun}
      (le : start ≤ run.first) (otherLe : otherStart ≤ run.second)
      (found : run.Matches first second)
      (behind : RunsBetween first second (run.first + run.size) (run.second + run.size) stop
        otherStop runs) :
      RunsBetween first second start otherStart stop otherStop (run :: runs)

namespace RunsBetween

variable {start otherStart middle otherMiddle stop otherStop : Nat} {runs more : List CommonRun}

theorem append (front : RunsBetween first second start otherStart middle otherMiddle runs)
    (back : RunsBetween first second middle otherMiddle stop otherStop more) :
    RunsBetween first second start otherStart stop otherStop (runs ++ more) := by
  induction front with
  | nil le otherLe =>
    cases back with
    | nil le' otherLe' => exact .nil (Nat.le_trans le le') (Nat.le_trans otherLe otherLe')
    | cons le' otherLe' found behind =>
      exact .cons (Nat.le_trans le le') (Nat.le_trans otherLe otherLe') found behind
  | cons le otherLe found _ ih => exact .cons le otherLe found (ih back)

/-- Runs that follow each other may be joined. -/
theorem joinRuns (between : RunsBetween first second start otherStart stop otherStop runs) :
    RunsBetween first second start otherStart stop otherStop (DocGrammar.joinRuns runs) := by
  induction between with
  | nil le otherLe => exact .nil le otherLe
  | @cons _ _ _ _ run runs le otherLe found _ ih =>
    rw [DocGrammar.joinRuns]
    cases joined : DocGrammar.joinRuns runs with
    | nil =>
      rw [joined] at ih
      exact .cons le otherLe found ih
    | cons next others =>
      rw [joined] at ih
      simp only
      split
      · -- a run that meets the next one is joined to it, and both bounds move along
        next meets =>
        obtain ⟨follows, alike⟩ := Bool.and_eq_true_iff.mp meets
        cases ih with
        | cons _ _ later behind =>
          have follows := of_decide_eq_true follows
          have alike := of_decide_eq_true alike
          refine .cons le otherLe (found.join later follows alike) ?_
          rwa [← Nat.add_assoc, ← Nat.add_assoc, follows, alike]
      · exact .cons le otherLe found ih

end RunsBetween

/-- The common runs of parts of two texts stand in the texts, in order. -/
theorem runsBetween_commonRuns (popular : String → Bool) (depth : Nat)
    (before first after otherBefore second otherAfter : List String) :
    RunsBetween (before ++ (first ++ after)) (otherBefore ++ (second ++ otherAfter))
      before.length otherBefore.length (before.length + first.length)
      (otherBefore.length + second.length)
      (commonRuns popular depth before.length otherBefore.length first second) := by
  induction depth generalizing before first after otherBefore second otherAfter with
  | zero => exact .nil (Nat.le_add_right _ _) (Nat.le_add_right _ _)
  | succ depth ih =>
    rw [commonRuns]
    have found := matches_longestRun popular first second
    have shifted := found.shift before after otherBefore otherAfter
    generalize longestRun popular first second = run at found shifted ⊢
    simp only
    split
    · exact .nil (Nat.le_add_right _ _) (Nat.le_add_right _ _)
    · obtain ⟨front, otherFront, common, back, otherBack, rfl, rfl, rfl⟩ := found
      have behind : ∀ lines own : List String,
          (lines ++ (common ++ own)).drop (lines.length + common.length) = own := by
        intro lines own
        rw [← List.length_append, ← List.append_assoc, List.drop_left]
      simp only [List.take_left, behind]
      -- the runs before the longest one, this run, and those behind it
      have left := ih before front (common ++ back ++ after) otherBefore otherFront
        (common ++ otherBack ++ otherAfter)
      have right := ih (before ++ (front ++ common)) back after
        (otherBefore ++ (otherFront ++ common)) otherBack otherAfter
      simp only [List.length_append, List.append_assoc] at left right shifted ⊢
      exact left.append (.cons (Nat.le_refl _) (Nat.le_refl _) shifted
        (by simpa only [Nat.add_assoc] using right))

/-- The runs of two texts stand in both, in order. -/
theorem runsBetween_matchingRuns (first second : List String) :
    RunsBetween first second 0 0 first.length second.length (matchingRuns first second) := by
  have found := runsBetween_commonRuns (isPopular second) (first.length + 1) [] first [] []
    second []
  simp only [List.nil_append, List.append_nil, List.length_nil, Nat.zero_add] at found
  exact found.joinRuns

/-- A text and itself have one run, unless there is nothing in it. -/
theorem matchingRuns_self (text : List String) (nonempty : text ≠ []) :
    matchingRuns text text = [⟨0, 0, text.length⟩] := by
  have nothing : ∀ depth start otherStart,
      commonRuns (isPopular text) depth start otherStart [] [] = [] := by
    intro depth start otherStart
    cases depth with
    | zero => rfl
    | succ depth => rw [commonRuns, longestRun_self, List.length_nil, if_pos rfl]
  rw [matchingRuns, commonRuns, longestRun_self]
  simp [nonempty, nothing, joinRuns]

/-! ## Edits -/

variable {start otherStart stop otherStop : Nat} {runs : List CommonRun} {edits group : List Edit}

/-- If nothing is replaced, what stands behind the start is the same in both texts. -/
theorem drop_eq_of_kept
    (between : RunsBetween first second start otherStart stop otherStop runs)
    (kept : ∀ edit ∈ editsFrom first second start otherStart runs, edit.isKept = true) :
    first.drop start = second.drop otherStart := by
  -- a replacement between two runs would not be kept
  have empty : ∀ {start otherStart : Nat} {old new : List String},
      (∀ edit ∈ editsFrom.change start otherStart old new, edit.isKept = true) →
        old = [] ∧ new = [] := by
    intro start otherStart old new kept
    unfold editsFrom.change at kept
    split at kept
    · next none => simpa using none
    · cases kept _ List.mem_cons_self
  induction between with
  | nil =>
    rw [editsFrom] at kept
    obtain ⟨old, new⟩ := empty kept
    rw [old, new]
  | @cons start otherStart _ _ run runs le otherLe found _ ih =>
    rw [editsFrom] at kept
    obtain ⟨before, later⟩ := List.forall_mem_append.mp kept
    obtain ⟨old, new⟩ := empty before
    have behind := ih (List.forall_mem_cons.mp later).2
    obtain ⟨front, otherFront, common, back, otherBack, rfl, rfl, rfl⟩ := found
    rw [List.take_left, List.drop_eq_nil_iff] at old new
    obtain rfl : start = front.length := Nat.le_antisymm le old
    obtain rfl : otherStart = otherFront.length := Nat.le_antisymm otherLe new
    rw [← List.length_append, ← List.length_append, ← List.append_assoc, ← List.append_assoc,
      List.drop_left, List.drop_left] at behind
    rw [List.drop_left, List.drop_left, behind]

/-- If nothing is replaced, the texts are equal. -/
theorem eq_of_kept (kept : ∀ edit ∈ DocGrammar.edits first second, edit.isKept = true) :
    first = second :=
  drop_eq_of_kept (runsBetween_matchingRuns first second) kept

/-- Between a text and itself there is one edit, which keeps it, unless there is nothing in it. -/
theorem edits_self (text : List String) :
    DocGrammar.edits text text = if text = [] then [] else [⟨true, 0, 0, text, text⟩] := by
  by_cases nonempty : text = []
  · rw [if_pos nonempty, nonempty]
    rfl
  · rw [if_neg nonempty, DocGrammar.edits, matchingRuns_self text nonempty]
    simp [editsFrom, editsFrom.change]

/-! ## Groups of edits -/

/-- Cutting the first lines that stay changes no kind of edit. -/
theorem map_isKept_cutStart (edits : List Edit) :
    (cutStart edits).map Edit.isKept = edits.map Edit.isKept := by
  cases edits with
  | nil => rfl
  | cons edit others =>
    rw [cutStart, List.map_cons, List.map_cons]
    split <;> rfl

/-- Cutting the last lines that stay changes no kind of edit. -/
theorem map_isKept_cutEnd (edits : List Edit) :
    (cutEnd edits).map Edit.isKept = edits.map Edit.isKept := by
  fun_induction cutEnd edits with
  | case1 => rfl
  | case2 edit => split <;> rfl
  | case3 edit others _ ih => rw [List.map_cons, List.map_cons, ih]

/-- If no group is shown, nothing is replaced. -/
theorem kept_of_groups_eq_nil (none : groups group edits = []) :
    ∀ edit ∈ group ++ edits, edit.isKept = true := by
  induction edits generalizing group with
  | nil =>
    rw [groups, groupOf] at none
    split at none
    · next all => rwa [List.append_nil, ← List.all_eq_true]
    · cases none
  | cons edit others ih =>
    rw [groups] at none
    split at none
    · cases none
    · have kept := ih none
      rwa [List.append_assoc, List.singleton_append] at kept

/-- Lines that all stay are no group if they are too few to be a gap. -/
theorem groups_single {edit : Edit} (kept : edit.isKept = true)
    (short : edit.old.length ≤ 2 * contextLines) : groups [] [edit] = [] := by
  have noGap : (edit.isKept && decide (2 * contextLines < edit.old.length)) = false := by
    rw [decide_eq_false (Nat.not_lt.mpr short), Bool.and_false]
  rw [groups, noGap, if_neg Bool.false_ne_true, groups, groupOf]
  exact if_pos (by rw [List.nil_append, List.all_cons, kept, List.all_nil]; rfl)

/-- Equal texts have no difference, and only equal texts do not. -/
theorem unifiedDiff_eq_nil_iff (name otherName : String) (first second : List String) :
    unifiedDiff name otherName first second = [] ↔ first = second := by
  have shown : unifiedDiff name otherName first second = [] ↔
      groups [] (cutEnd (cutStart (DocGrammar.edits first second))) = [] := by
    rw [unifiedDiff]
    split
    · next empty => exact ⟨fun _ => List.isEmpty_iff.mp empty, fun _ => rfl⟩
    · next some =>
      exact ⟨fun none => (nomatch none), fun none => absurd (List.isEmpty_iff.mpr none) some⟩
  rw [shown]
  constructor
  · intro none
    have cut := kept_of_groups_eq_nil none
    have kept : ∀ own ∈ (DocGrammar.edits first second).map Edit.isKept, own = true := by
      rw [← map_isKept_cutStart, ← map_isKept_cutEnd]
      exact List.forall_mem_map.mpr cut
    exact eq_of_kept (List.forall_mem_map.mp kept)
  · rintro rfl
    rw [edits_self]
    split
    · rfl
    · let edit : Edit := ⟨true, 0, 0, first, first⟩
      have short : ((edit.takeLast contextLines).take contextLines).old.length ≤ contextLines := by
        rw [Edit.take, List.length_take]
        exact Nat.min_le_left _ _
      -- the lines that stay are cut down to the context, which is too short to be a gap
      show groups [] [(edit.takeLast contextLines).take contextLines] = []
      exact groups_single rfl (Nat.le_trans short (by decide))

end DocGrammar
