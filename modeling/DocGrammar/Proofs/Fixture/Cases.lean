import DocGrammar.Fixture.Case
import DocGrammar.Proofs.Tokens.Quotes
import Mathlib.Data.List.TakeWhile

/-! # Cases one behind the other

A case ends in front of the next header, so what is read of a case does not depend on the cases
behind it. Reading a file therefore splits at every case: the cases in front are read as if they
stood alone, and the first case that cannot be read decides what is wrong with the file.

* **`CaseHeader.exists_lines`**, **`CaseLines`** — the lines of a header and of what is below it.
* **`readCase`** — the first case of some lines.
* **`casesFrom_append`** — cases in front of others are read alone.
* **`casesFrom_eq_error_iff`** — a file is wrong in its first case that is. -/

namespace DocGrammar

variable {number size : Nat} {first : List Char} {rest lines more : List (List Char)}
  {header : CaseHeader} {case : FixtureCase} {cases : List FixtureCase} {error : FixtureError}

/-- Whether some lines start with a header, if there are any. -/
def StartsCase (lines : List (List Char)) : Prop :=
  ∀ line ∈ lines.head?, isHeaderLine line = true

theorem startsCase_nil : StartsCase [] := nofun

theorem StartsCase.append (starts : StartsCase lines) (behind : StartsCase more) :
    StartsCase (lines ++ more) := by
  cases lines with
  | nil => exact behind
  | cons line others => exact starts

/-! ## Headers -/

namespace CaseHeader

/-- A header that is read from below a rule has a name and attributes up to another rule. -/
theorem read_rule {nameLine rule : List Char} {attributeLines : List (List Char)}
    {attributes : CaseAttributes} (single : inlineName? first = none) (opens : isRule first = true)
    (named : nameLine.all isBlank = false) (plain : ∀ line ∈ attributeLines, isRule line = false)
    (closes : isRule rule = true)
    (states : CaseAttributes.addAll ⟨none, none⟩ (number + 2) attributeLines = .ok attributes)
    (more : List (List Char)) :
    read number first (nameLine :: (attributeLines ++ rule :: more)) =
      .ok ⟨String.ofList (trim nameLine), attributes, attributeLines.length + 2⟩ := by
  have taken : (attributeLines ++ rule :: more).takeWhile (!isRule ·) = attributeLines := by
    rw [List.takeWhile_append_of_pos fun line member => by rw [plain line member]; rfl,
      List.takeWhile_cons_of_neg (by rw [closes]; exact Bool.false_ne_true), List.append_nil]
  unfold read
  simp [single, opens, named, taken, states]

/-- The lines of a header that is read. They are read in the same way in front of any others. -/
theorem exists_lines (reads : read number first rest = .ok header) :
    isHeaderLine first = true ∧ ∃ own behind, rest = own ++ behind ∧ own.length = header.extra ∧
      ∀ more, read number first (own ++ more) = .ok header := by
  unfold read at reads
  split at reads
  · -- a rule that holds the name is a header of one line
    next name single =>
    cases reads
    refine ⟨by rw [isHeaderLine, single, Option.isSome_some, Bool.or_true], [], rest, rfl, rfl,
      fun more => ?_⟩
    unfold read
    rw [single]
  · next single =>
    split at reads
    · cases reads
    next opens =>
    have opens : isRule first = true := by simpa using opens
    split at reads
    · cases reads
    next nameLine behind =>
    split at reads
    · cases reads
    next named =>
    obtain ⟨attributes, states, reads⟩ := exists_of_bind_ok reads
    split at reads
    · cases reads
    next closed =>
    cases reads
    -- the lines up to the next rule are those of the attributes
    have cut := List.takeWhile_append_dropWhile (p := (!isRule ·)) (l := behind)
    cases left : behind.dropWhile (!isRule ·) with
    | nil =>
      rw [left, List.append_nil] at cut
      exact absurd (congrArg List.length cut) closed
    | cons rule below =>
      have closes : isRule rule = true := by
        have stop := List.head?_dropWhile_not (!isRule ·) behind
        simpa [left] using stop
      have plain : ∀ line ∈ behind.takeWhile (!isRule ·), isRule line = false := fun line member =>
        by simpa using List.mem_takeWhile_imp member
      refine ⟨by rw [isHeaderLine, opens, Bool.true_or],
        nameLine :: (behind.takeWhile (!isRule ·) ++ [rule]), below, ?_, by simp, fun more => ?_⟩
      · rw [List.cons_append, List.append_assoc, List.singleton_append, ← left, cut]
      · rw [List.cons_append, List.append_assoc, List.singleton_append]
        exact read_rule single opens (by simpa using named) plain closes states more

/-- A header is read in the same way in front of more lines. -/
theorem read_append (reads : read number first rest = .ok header) (more : List (List Char)) :
    read number first (rest ++ more) = .ok header := by
  obtain ⟨_, own, behind, rfl, _, again⟩ := exists_lines reads
  rw [List.append_assoc]
  exact again _

end CaseHeader

/-! ## Bodies -/

/-- The lines of a case below its header. -/
structure CaseLines where
  /-- The lines of the input. -/
  body : List (List Char)
  /-- The divider. -/
  divider : List Char
  /-- The lines of the tree. -/
  tree : List (List Char)
  /-- Neither a divider nor a header stands in the input. -/
  plain : ∀ line ∈ body, isDivider line = false ∧ isHeaderLine line = false
  /-- The divider is one. -/
  divides : isDivider divider = true
  /-- No header stands in the tree. -/
  inside : ∀ line ∈ tree, isHeaderLine line = false

namespace CaseLines

/-- All lines of a case below its header. -/
def all (own : CaseLines) : List (List Char) := own.body ++ own.divider :: own.tree

/-- The text of the tree. -/
def treeText (own : CaseLines) : String := String.ofList (trim (joinLines own.tree))

/-- The input text. -/
def input (own : CaseLines) : String := String.ofList (trimWhile (· = '\n') (joinLines own.body))

/-- What the lines are read as below a header. -/
def outcome (own : CaseLines) (number : Nat) (header : CaseHeader) :
    Except FixtureError (FixtureCase × Nat) :=
  if (trim (joinLines own.tree)).isEmpty then .error ⟨.missingTree header.name, number⟩
  else
    match Outline.read own.treeText with
    | .error error => .error ⟨.malformedTree header.name error, number⟩
    | .ok expected =>
      .ok (⟨header.name, own.input, expected, number, header.attributes⟩, own.all.length)

/-- The lines of a case are read up to those that start the next one. -/
theorem read_all (own : CaseLines) (number : Nat) (header : CaseHeader) (starts : StartsCase more) :
    FixtureCase.read number header (own.all ++ more) = own.outcome number header := by
  have body : (own.all ++ more).takeWhile (fun line => !isDivider line && !isHeaderLine line) =
      own.body := by
    rw [all, List.append_assoc, List.takeWhile_append_of_pos fun line member => by
      rw [(own.plain line member).1, (own.plain line member).2]; rfl, List.cons_append,
      List.takeWhile_cons_of_neg (by rw [own.divides]; exact Bool.false_ne_true), List.append_nil]
  -- the tree goes up to the next header or to the end of the lines
  have tree : (own.tree ++ more).takeWhile (!isHeaderLine ·) = own.tree := by
    rw [List.takeWhile_append_of_pos fun line member => by rw [own.inside line member]; rfl]
    cases more with
    | nil => rw [List.takeWhile_nil, List.append_nil]
    | cons line others =>
      rw [List.takeWhile_cons_of_neg (by rw [starts line rfl]; exact Bool.false_ne_true),
        List.append_nil]
  have below : (own.all ++ more).drop own.body.length = own.divider :: (own.tree ++ more) := by
    rw [all, List.append_assoc, List.drop_left, List.cons_append]
  have size : own.body.length + 1 + own.tree.length = own.all.length := by
    rw [all, List.length_append, List.length_cons]
    omega
  unfold FixtureCase.read
  simp only [body, below, tree, own.divides, size, Bool.not_true, Bool.false_eq_true, if_false]
  rfl

/-- Below a header there is no divider, or the lines of a case and those of the next one. -/
theorem exists_of_read (number : Nat) (header : CaseHeader) (lines : List (List Char)) :
    FixtureCase.read number header lines = .error ⟨.missingDivider header.name, number⟩ ∨
      ∃ own : CaseLines, ∃ behind, lines = own.all ++ behind ∧ StartsCase behind := by
  let continues (line : List Char) := !isDivider line && !isHeaderLine line
  have plain : ∀ line ∈ lines.takeWhile continues,
      isDivider line = false ∧ isHeaderLine line = false := fun line member => by
    simpa [continues] using List.mem_takeWhile_imp member
  have cut : lines.takeWhile continues ++ lines.drop (lines.takeWhile continues).length = lines :=
    List.prefix_iff_eq_append.mp (List.takeWhile_prefix continues)
  unfold FixtureCase.read
  dsimp only
  split
  · exact .inl rfl
  · next divider rest below =>
    split
    · exact .inl rfl
    · next divides =>
      refine .inr ⟨⟨lines.takeWhile continues, divider, rest.takeWhile (!isHeaderLine ·), plain,
        by simpa using divides, fun line member => by simpa using List.mem_takeWhile_imp member⟩,
        rest.dropWhile (!isHeaderLine ·), ?_, fun line heads => ?_⟩
      · rw [all, List.append_assoc, List.cons_append, List.takeWhile_append_dropWhile, ← below]
        exact cut.symm
      · have stop := List.head?_dropWhile_not (!isHeaderLine ·) rest
        rw [Option.mem_def.mp heads] at stop
        simpa using stop

/-- No outline is read from blank lines. -/
theorem read_treeText_of_isEmpty {own : CaseLines}
    (empty : (trim (joinLines own.tree)).isEmpty = true) :
    Outline.read own.treeText = .error .missingParenthesis := by
  rw [treeText, List.isEmpty_iff.mp empty, Outline.read, String.toList_ofList, OutlinePiece.all]
  rfl

/-- The lines of a case are read exactly if their tree is. -/
theorem outcome_eq_ok_iff {own : CaseLines} : own.outcome number header = .ok (case, size) ↔
    ∃ expected, Outline.read own.treeText = .ok expected ∧
      case = ⟨header.name, own.input, expected, number, header.attributes⟩ ∧
      size = own.all.length := by
  unfold outcome
  split
  · next empty =>
    rw [read_treeText_of_isEmpty empty]
    exact ⟨(fun reads => nomatch reads), fun ⟨_, reads, _⟩ => nomatch reads⟩
  · split
    · next reads =>
      rw [reads]
      exact ⟨(fun found => nomatch found), fun ⟨_, found, _⟩ => nomatch found⟩
    · next expected reads =>
      rw [reads]
      constructor
      · intro found
        cases found
        exact ⟨expected, rfl, rfl, rfl⟩
      · rintro ⟨_, found, rfl, rfl⟩
        cases found
        rfl

end CaseLines

/-! ## The first case -/

/-- The first case of some lines, and the number of its lines behind the first one. -/
def readCase (number : Nat) (first : List Char) (rest : List (List Char)) :
    Except FixtureError (FixtureCase × Nat) := do
  let header ← CaseHeader.read number first rest
  let (case, size) ← FixtureCase.read number header (rest.drop header.extra)
  return (case, header.extra + size)

/-- The first case is read, then those behind it. -/
theorem casesFrom_cons (number : Nat) (first : List Char) (rest : List (List Char)) :
    casesFrom number (first :: rest) = (do
      let found ← readCase number first rest
      let others ← casesFrom (number + 1 + found.2) (rest.drop found.2)
      return found.1 :: others) := by
  rw [casesFrom, readCase]
  cases CaseHeader.read number first rest with
  | error fault => rfl
  | ok header =>
    show (FixtureCase.read _ _ _ >>= _) = ((FixtureCase.read _ _ _ >>= _) >>= _)
    cases FixtureCase.read number header (rest.drop header.extra) with
    | error fault => rfl
    | ok found =>
      show (casesFrom (number + 1 + header.extra + found.2) _ >>= _) =
        (casesFrom (number + 1 + (header.extra + found.2)) _ >>= _)
      rw [Nat.add_assoc (number + 1)]

/-- A case is read from a header and from lines up to those that start the next case. -/
theorem readCase_append {headerLines : List (List Char)}
    (reads : CaseHeader.read number first headerLines = .ok header)
    (whole : headerLines.length = header.extra) (own : CaseLines) (starts : StartsCase more) :
    readCase number first (headerLines ++ (own.all ++ more)) =
      (own.outcome number header).map fun found => (found.1, headerLines.length + found.2) := by
  rw [readCase, CaseHeader.read_append reads]
  show (FixtureCase.read _ _ _ >>= _) = _
  rw [← whole, List.drop_left, own.read_all number header starts]
  cases own.outcome number header <;> rfl

/-- The lines of a case that is read, which are read in the same way in front of any other case. -/
theorem exists_of_readCase (reads : readCase number first rest = .ok (case, size)) :
    isHeaderLine first = true ∧ ∃ own behind, rest = own ++ behind ∧ own.length = size ∧
      StartsCase behind ∧
      ∀ more, StartsCase more → readCase number first (own ++ more) = .ok (case, size) := by
  obtain ⟨header, headed, below⟩ := exists_of_bind_ok reads
  obtain ⟨⟨_, _⟩, read, found⟩ := exists_of_bind_ok below
  cases found
  obtain ⟨isHeader, headerLines, behindHeader, rfl, whole, again⟩ := CaseHeader.exists_lines headed
  rw [← whole, List.drop_left] at read
  obtain missing | ⟨own, behind, rfl, starts⟩ := CaseLines.exists_of_read number header behindHeader
  · rw [missing] at read
    cases read
  rw [own.read_all number header starts] at read
  obtain ⟨_, _, _, rfl⟩ := CaseLines.outcome_eq_ok_iff.mp read
  -- the header is read in the same way whatever stands behind its own lines
  have alone : CaseHeader.read number first headerLines = .ok header := by
    have same := again []
    rwa [List.append_nil] at same
  refine ⟨isHeader, headerLines ++ own.all, behind, (List.append_assoc _ _ _).symm,
    by rw [List.length_append, whole], starts, fun more startsMore => ?_⟩
  rw [List.append_assoc, readCase_append alone whole own startsMore, read, ← whole]
  rfl

/-- The expected outline of a case that is read is read from a text. -/
theorem exists_read_of_readCase (reads : readCase number first rest = .ok (case, size)) :
    ∃ text, Outline.read text = .ok case.expected := by
  obtain ⟨header, _, below⟩ := exists_of_bind_ok reads
  obtain ⟨⟨_, _⟩, read, found⟩ := exists_of_bind_ok below
  cases found
  obtain missing | ⟨own, behind, cut, starts⟩ :=
    CaseLines.exists_of_read number header (rest.drop header.extra)
  · rw [missing] at read
    cases read
  · rw [cut, own.read_all number header starts] at read
    obtain ⟨expected, isRead, rfl, _⟩ := CaseLines.outcome_eq_ok_iff.mp read
    exact ⟨_, isRead⟩

/-! ## All cases -/

theorem casesFrom_nil (number : Nat) : casesFrom number [] = .ok [] := by
  rw [casesFrom]

/-- Lines that are read as cases: each case takes lines of its own, in front of those of the others,
and would be read from them alone. -/
inductive ReadsCases : Nat → List (List Char) → List FixtureCase → Prop
  /-- There are no lines left. -/
  | nil (number : Nat) : ReadsCases number [] []
  /-- The first line starts a case. -/
  | cons {number : Nat} {first : List Char} {own behind : List (List Char)} {case : FixtureCase}
      {others : List FixtureCase} (headed : isHeaderLine first = true)
      (starts : StartsCase behind)
      (reads : ∀ more, StartsCase more →
        readCase number first (own ++ more) = .ok (case, own.length))
      (below : ReadsCases (number + 1 + own.length) behind others) :
      ReadsCases number (first :: (own ++ behind)) (case :: others)

/-- A case whose lines stand in front of others is read with them. -/
theorem casesFrom_cons_append {own more : List (List Char)}
    (reads : readCase number first (own ++ more) = .ok (case, own.length)) :
    casesFrom number (first :: (own ++ more)) =
      (casesFrom (number + 1 + own.length) more).map (case :: ·) := by
  rw [casesFrom_cons, reads]
  show (casesFrom _ ((own ++ more).drop own.length) >>= _) = _
  rw [List.drop_left]
  cases casesFrom (number + 1 + own.length) more <;> rfl

/-- What each case would be read from alone it is read from in front of the others. -/
theorem ReadsCases.casesFrom_eq (reads : ReadsCases number lines cases) :
    casesFrom number lines = .ok cases := by
  induction reads with
  | nil number => exact casesFrom_nil number
  | cons _ starts readsCase _ ih =>
    rw [casesFrom_cons_append (readsCase _ starts), ih]
    rfl

/-- Cases are read from lines of their own. -/
theorem readsCases_of_casesFrom (reads : casesFrom number lines = .ok cases) :
    ReadsCases number lines cases := by
  -- a case takes any number of lines, so the induction is on how many there are
  induction size : lines.length using Nat.strong_induction_on generalizing number lines cases with
  | h size ih =>
    cases lines with
    | nil =>
      rw [casesFrom_nil] at reads
      cases reads
      exact .nil number
    | cons first rest =>
      rw [casesFrom_cons] at reads
      obtain ⟨⟨case, size⟩, here, reads⟩ := exists_of_bind_ok reads
      obtain ⟨others, below, found⟩ := exists_of_bind_ok reads
      cases found
      obtain ⟨headed, own, behind, rfl, rfl, starts, again⟩ := exists_of_readCase here
      rw [List.drop_left] at below
      refine .cons headed starts again (ih _ ?_ below rfl)
      subst size
      rw [List.length_cons, List.length_append]
      omega

/-- Lines that are read as cases start with one. -/
theorem startsCase_of_casesFrom (reads : casesFrom number lines = .ok cases) :
    StartsCase lines := by
  cases readsCases_of_casesFrom reads with
  | nil => exact startsCase_nil
  | cons headed =>
    rintro _ ⟨⟩
    exact headed

/-- Cases in front of others are read as if they stood alone. -/
theorem casesFrom_append (reads : casesFrom number lines = .ok cases) (starts : StartsCase more) :
    casesFrom number (lines ++ more) =
      (casesFrom (number + lines.length) more).map (cases ++ ·) := by
  induction readsCases_of_casesFrom reads with
  | nil number =>
    rw [List.nil_append, List.length_nil, Nat.add_zero]
    cases casesFrom number more <;> rfl
  | @cons number first own behind case others headed startsBehind readsCase below ih =>
    have stop : number + 1 + own.length + behind.length =
        number + (first :: (own ++ behind)).length := by
      rw [List.length_cons, List.length_append]
      omega
    rw [List.cons_append, List.append_assoc,
      casesFrom_cons_append (readsCase _ (startsBehind.append starts)), ih below.casesFrom_eq, stop]
    cases casesFrom (number + (first :: (own ++ behind)).length) more <;> rfl

/-- Cases that cannot be read fail at a first one, behind some that are read alone. -/
theorem exists_of_casesFrom_error (failed : casesFrom number lines = .error error) :
    ∃ front cases first rest, lines = front ++ first :: rest ∧
      casesFrom number front = .ok cases ∧ (front ≠ [] → isHeaderLine first = true) ∧
      readCase (number + front.length) first rest = .error error := by
  induction size : lines.length using Nat.strong_induction_on generalizing number lines with
  | h size ih =>
    cases lines with
    | nil =>
      rw [casesFrom_nil] at failed
      cases failed
    | cons first rest =>
      rw [casesFrom_cons] at failed
      obtain here | ⟨⟨case, size⟩, here, later⟩ := bind_eq_error_iff.mp failed
      · exact ⟨[], [], first, rest, rfl, casesFrom_nil number, fun none => absurd rfl none, here⟩
      · obtain ⟨_, own, behind, rfl, rfl, starts, again⟩ := exists_of_readCase here
        have below := error_of_bind_ok later fun _ => nofun
        rw [List.drop_left] at below
        subst size
        -- the first case is read, so the failure is one of the lines behind it
        have shorter : behind.length < (first :: (own ++ behind)).length := by
          rw [List.length_cons, List.length_append]
          omega
        obtain ⟨front, cases, line, more, rfl, reads, headed, failure⟩ :=
          ih behind.length shorter below rfl
        have stop : number + (first :: (own ++ front)).length =
            number + 1 + own.length + front.length := by
          rw [List.length_cons, List.length_append]
          omega
        refine ⟨first :: (own ++ front), case :: cases, line, more, by simp, ?_, fun _ => ?_, ?_⟩
        · rw [casesFrom_cons_append (again front (startsCase_of_casesFrom reads)), reads]
          rfl
        · cases front with
          | nil => exact starts line rfl
          | cons head front => exact headed (List.cons_ne_nil _ _)
        · rwa [stop]

/-- Cases cannot be read exactly if there is a first one that cannot be, behind some that are read
alone, and this one decides what is wrong. -/
theorem casesFrom_eq_error_iff : casesFrom number lines = .error error ↔
    ∃ front cases first rest, lines = front ++ first :: rest ∧
      casesFrom number front = .ok cases ∧ (front ≠ [] → isHeaderLine first = true) ∧
      readCase (number + front.length) first rest = .error error := by
  refine ⟨exists_of_casesFrom_error, ?_⟩
  rintro ⟨front, cases, first, rest, rfl, reads, headed, failed⟩
  have here : casesFrom (number + front.length) (first :: rest) = .error error := by
    rw [casesFrom_cons, failed]
    rfl
  cases front with
  | nil => simpa using here
  | cons line front =>
    rw [casesFrom_append reads, here]
    · rfl
    · rintro _ ⟨⟩
      exact headed (List.cons_ne_nil _ _)

/-- The expected outline of every case is read from a text. -/
theorem exists_read_of_mem_casesFrom (reads : casesFrom number lines = .ok cases) :
    ∀ case ∈ cases, ∃ text, Outline.read text = .ok case.expected := by
  induction readsCases_of_casesFrom reads with
  | nil => exact List.forall_mem_nil _
  | cons headed starts readsCase below ih =>
    exact List.forall_mem_cons.mpr
      ⟨exists_read_of_readCase (readsCase _ starts), ih below.casesFrom_eq⟩

/-! ## Files -/

/-- A line that starts a header is not blank. -/
theorem isBlank_of_isHeaderLine (isHeader : isHeaderLine first = true) :
    first.all isBlank = false := by
  have signs : 3 ≤ (first.takeWhile (· = '=')).length := by
    rcases Bool.or_eq_true_iff.mp isHeader with rule | single
    · simpa using (Bool.and_eq_true_iff.mp rule).1
    · by_contra few
      rw [inlineName?] at single
      simp [Nat.lt_of_not_le few] at single
  cases first with
  | nil => simp at signs
  | cons char rest =>
    have sign : char = '=' := by
      by_contra other
      rw [List.takeWhile_cons_of_neg (by simpa using other)] at signs
      simp at signs
    rw [sign, List.all_cons, show isBlank '=' = false by decide, Bool.false_and]

/-- The cases of a file are read from its first line on that is not blank. -/
theorem readFixture_eq {text : String} {blanks : List (List Char)}
    (cut : breakLines text.toList = blanks ++ lines)
    (blank : ∀ line ∈ blanks, line.all isBlank = true) (starts : StartsCase lines) :
    readFixture text = casesFrom (blanks.length + 1) lines := by
  have taken : (blanks ++ lines).takeWhile (·.all isBlank) = blanks := by
    rw [List.takeWhile_append_of_pos blank]
    cases lines with
    | nil => rw [List.takeWhile_nil, List.append_nil]
    | cons first rest =>
      rw [List.takeWhile_cons_of_neg (by
        rw [isBlank_of_isHeaderLine (starts first rfl)]; exact Bool.false_ne_true), List.append_nil]
  rw [readFixture, cut, taken, List.drop_left]

/-- Blank lines may stand in front of the lines that are read as cases. -/
theorem exists_of_readFixture (text : String) : ∃ blanks lines,
    breakLines text.toList = blanks ++ lines ∧ (∀ line ∈ blanks, line.all isBlank = true) ∧
      readFixture text = casesFrom (blanks.length + 1) lines := by
  have cut := List.prefix_iff_eq_append.mp (List.takeWhile_prefix (l := breakLines text.toList)
    (fun line : List Char => line.all isBlank))
  exact ⟨_, _, cut.symm, fun line member => by simpa using List.mem_takeWhile_imp member, rfl⟩

end DocGrammar
