import Mathlib
import DocGrammar.CommandLine.Command
import DocGrammar.Proofs.Fixture.Cases

/-! # Faults of fixture files

What is wrong with a fixture file is told with a line of the file, or the line behind its last one.
There is one fault that a test run does not deal with: a literal in an expected tree may be found
well closed and hold an escape or a control character that cannot be decoded. It is met exactly if
the outline would go on with another literal in its place, in the first case that cannot be read.

* **`Outline.read_eq_malformedLiteral_iff`** — when an outline is refused for a literal.
* **`line_le_of_readFixture`** — where a file is wrong.
* **`RefusesLiteral`**, **`readFixture_eq_malformedLiteral_iff`** — when a file is refused for a
  literal.
* **`crash_testPath_iff`** — what a test run of a file does then.
* **`fixture_faults`** — all of it. -/

namespace DocGrammar

/-! ## Literals of outlines -/

/-- A text is cut into pieces up to something that is none. -/
theorem OutlinePiece.unexpected_of_all {chars : List Char} {fault : OutlineError}
    (failed : all chars = .error fault) : ∃ start, fault = .unexpectedText start := by
  fun_induction all chars with
  | case1 => cases failed
  | case2 char rest blank ih => exact ih failed
  | case3 char rest _ none =>
    cases failed
    exact ⟨_, rfl⟩
  | case4 char rest _ piece extra _ ih =>
    exact ih (error_of_bind_ok failed fun _ => nofun)

namespace Outline

/-- What is awaited and open behind a piece, if reading goes on whatever stands there. -/
def after? : Awaited → List Outline → OutlinePiece → Option (Awaited × List Outline)
  | .node field, outer, .opening => some (.kind field, outer)
  | .kind field, outer, .kind name => some (.content, ⟨name, none, field, []⟩ :: outer)
  | .content, inner :: outer, piece =>
    match piece with
    | .opening => some (.kind none, inner :: outer)
    | .closing => outer.head?.map fun parent => (.content, parent.addChild inner :: outer.tail)
    | .field name => some (.node (some name), inner :: outer)
    | .kind _ => none
    | .literal content =>
      if inner.text.isSome then none
      else (Literal.decode? content).map fun text =>
        (.content, { inner with text := some text } :: outer)
  | _, _, _ => none

variable {awaited : Awaited} {outer : List Outline} {piece : OutlinePiece}
  {rest pieces : List OutlinePiece}

/-- Reading goes on behind a piece. -/
theorem ofPieces_after {next : Awaited × List Outline}
    (goesOn : after? awaited outer piece = some next)
    (rest : List OutlinePiece) :
    ofPieces awaited outer (piece :: rest) = ofPieces next.1 next.2 rest := by
  cases awaited with
  | node field => cases piece <;> cases goesOn; rfl
  | kind field => cases piece <;> cases goesOn; rfl
  | content =>
    cases outer with
    | nil => cases goesOn
    | cons inner outer =>
      cases piece with
      | opening | field name =>
        cases goesOn
        rfl
      | kind name => cases goesOn
      -- a closing mark below the root needs an open parent
      | closing =>
        cases outer with
        | nil => cases goesOn
        | cons parent others =>
          cases goesOn
          rfl
      | literal content =>
        rw [after?] at goesOn
        split at goesOn
        · cases goesOn
        · next absent =>
          obtain ⟨text, decodes, rfl⟩ := Option.map_eq_some_iff.mp goesOn
          rw [ofPieces, if_neg absent, decodes]

/-- Where reading does not go on, it is refused for a literal that cannot be decoded in an open node
without a text, and otherwise for something else or done. -/
theorem ofPieces_stuck (stuck : after? awaited outer piece = none) (rest : List OutlinePiece) :
    (∃ content inner others, awaited = .content ∧ outer = inner :: others ∧
      piece = .literal content ∧ inner.text = none ∧ Literal.decode? content = none ∧
      ofPieces awaited outer (piece :: rest) = .error .malformedLiteral) ∨
    (ofPieces awaited outer (piece :: rest) ≠ .error .malformedLiteral ∧
      ∀ kind, ofPieces awaited outer (piece :: rest) ≠ .error (.unclosed kind)) := by
  cases awaited with
  | node field =>
    have refused : ofPieces (.node field) outer (piece :: rest) = .error .missingParenthesis := by
      cases piece <;> first | rfl | cases stuck
    rw [refused]
    exact .inr ⟨nofun, nofun⟩
  | kind field =>
    have refused : ofPieces (.kind field) outer (piece :: rest) = .error .missingKind := by
      cases piece <;> first | rfl | cases stuck
    rw [refused]
    exact .inr ⟨nofun, nofun⟩
  | content =>
    cases outer with
    | nil => exact .inr ⟨nofun, nofun⟩
    | cons inner outer =>
      cases piece with
      | opening | field => cases stuck
      | kind name => exact .inr ⟨nofun, nofun⟩
      | closing =>
        cases outer with
        | nil => cases rest <;> exact .inr ⟨nofun, nofun⟩
        | cons parent others => cases stuck
      | literal content =>
        rw [after?] at stuck
        rw [ofPieces]
        split at stuck
        · -- a node that has a text takes no other one, whatever it decodes to
          next double =>
          rw [if_pos double]
          exact .inr ⟨nofun, nofun⟩
        · next absent =>
          have stray : Literal.decode? content = none := Option.map_eq_none_iff.mp stuck
          rw [if_neg absent, stray]
          exact .inl ⟨content, inner, outer, rfl, rfl, rfl, by simpa using absent, stray, rfl⟩

/-- Pieces that are refused for a literal hold one that cannot be decoded, and an open node waits in
front of it. -/
theorem exists_of_ofPieces_malformedLiteral
    (refused : ofPieces awaited outer pieces = .error .malformedLiteral) :
    ∃ before content after kind, pieces = before ++ .literal content :: after ∧
      Literal.decode? content = none ∧
      ofPieces awaited outer (before ++ [.literal []]) = .error (.unclosed kind) := by
  induction pieces generalizing awaited outer with
  | nil => cases awaited <;> cases outer <;> cases refused
  | cons piece rest ih =>
    cases after : after? awaited outer piece with
    | some next =>
      rw [ofPieces_after after] at refused
      obtain ⟨before, content, behind, kind, rfl, stray, waits⟩ := ih refused
      refine ⟨piece :: before, content, behind, kind, rfl, stray, ?_⟩
      rw [List.cons_append, ofPieces_after after]
      exact waits
    | none =>
      -- where reading stops, the literal in the way is the one that cannot be decoded
      obtain ⟨content, inner, others, rfl, rfl, rfl, absent, stray, _⟩ | ⟨other, _⟩ :=
        ofPieces_stuck after rest
      · refine ⟨[], content, rest, inner.kind, rfl, stray, ?_⟩
        rw [List.nil_append, ofPieces, absent]
        rfl
      · exact absurd refused other

/-- A literal that cannot be decoded is refused where an open node would wait for more behind an
empty one. -/
theorem ofPieces_malformedLiteral_of_unclosed {before : List OutlinePiece} {content : List Char}
    {kind : String} (stray : Literal.decode? content = none)
    (waits : ofPieces awaited outer (before ++ [.literal []]) = .error (.unclosed kind))
    (behind : List OutlinePiece) :
    ofPieces awaited outer (before ++ .literal content :: behind) = .error .malformedLiteral := by
  induction before generalizing awaited outer with
  | nil =>
    cases awaited with
    | node | kind => cases waits
    | content =>
      cases outer with
      | nil => cases waits
      | cons inner outer =>
        -- an empty literal is taken here, so the node has no text yet
        rw [List.nil_append, ofPieces] at waits
        rw [List.nil_append, ofPieces]
        split at waits
        · cases waits
        · next absent => rw [if_neg absent, stray]
  | cons piece before ih =>
    cases after : after? awaited outer piece with
    | some next =>
      rw [List.cons_append, ofPieces_after after] at waits
      rw [List.cons_append, ofPieces_after after]
      exact ih waits
    | none =>
      obtain ⟨_, _, _, _, _, _, _, _, refused⟩ | ⟨_, other⟩ :=
        ofPieces_stuck after (before ++ [.literal []])
      · rw [List.cons_append, refused] at waits
        cases waits
      · exact absurd waits (other kind)

/-- Pieces are refused for a literal exactly if it cannot be decoded, and with an empty one in its
place an open node would wait for more. -/
theorem ofPieces_eq_malformedLiteral_iff :
    ofPieces awaited outer pieces = .error .malformedLiteral ↔
    ∃ before content after kind, pieces = before ++ .literal content :: after ∧
      Literal.decode? content = none ∧
      ofPieces awaited outer (before ++ [.literal []]) = .error (.unclosed kind) := by
  refine ⟨exists_of_ofPieces_malformedLiteral, ?_⟩
  rintro ⟨before, content, behind, kind, rfl, stray, waits⟩
  exact ofPieces_malformedLiteral_of_unclosed stray waits behind

/-- **When an outline is refused for a literal.** Its text is cut into pieces, and the outline is
read up to a literal that cannot be decoded. -/
theorem read_eq_malformedLiteral_iff {text : String} : read text = .error .malformedLiteral ↔
    ∃ before content after kind,
      OutlinePiece.all text.toList = .ok (before ++ .literal content :: after) ∧
      Literal.decode? content = none ∧
      ofPieces (.node none) [] (before ++ [.literal []]) = .error (.unclosed kind) := by
  rw [read, bind_eq_error_iff]
  constructor
  · rintro (uncut | ⟨pieces, cut, refused⟩)
    · obtain ⟨start, other⟩ := OutlinePiece.unexpected_of_all uncut
      cases other
    · obtain ⟨before, content, behind, kind, rfl, stray, waits⟩ :=
        ofPieces_eq_malformedLiteral_iff.mp refused
      exact ⟨before, content, behind, kind, cut, stray, waits⟩
  · rintro ⟨before, content, behind, kind, cut, stray, waits⟩
    exact .inr ⟨_, cut, ofPieces_eq_malformedLiteral_iff.mpr
      ⟨before, content, behind, kind, rfl, stray, waits⟩⟩

end Outline

/-! ## Lines of faults -/

variable {number : Nat} {first : List Char} {rest lines : List (List Char)} {error : FixtureError}

theorem CaseAttributes.bounds_of_addAll {attributes : CaseAttributes}
    (failed : attributes.addAll number lines = .error error) :
    (∃ line, error.fault = .unexpectedHeaderLine line) ∧
      number ≤ error.line ∧ error.line < number + lines.length := by
  induction lines generalizing attributes number with
  | nil => cases failed
  | cons line others ih =>
    rw [addAll] at failed
    rw [List.length_cons]
    split at failed
    · cases failed
      exact ⟨⟨_, rfl⟩, Nat.le_refl number, by dsimp only; omega⟩
    · obtain ⟨fault, low, high⟩ := ih failed
      exact ⟨fault, by omega, by omega⟩

/-- A header is wrong in one of its lines or behind them. -/
theorem CaseHeader.bounds_of_read (failed : read number first rest = .error error) :
    (∀ name own, error.fault ≠ .malformedTree name own) ∧
      number ≤ error.line ∧ error.line ≤ number + (first :: rest).length := by
  unfold read at failed
  split at failed
  · cases failed
  split at failed
  · cases failed
    exact ⟨fun _ _ same => (by cases same), by simp⟩
  split at failed
  · cases failed
    exact ⟨fun _ _ same => (by cases same), by simp⟩
  next nameLine more =>
  have shorter : (more.takeWhile (!isRule ·)).length ≤ more.length :=
    (List.takeWhile_prefix _).length_le
  simp only [List.length_cons]
  split at failed
  · cases failed
    exact ⟨fun _ _ same => (by cases same), by dsimp only; omega⟩
  -- the attributes are added before the closing rule is looked for
  obtain states | ⟨attributes, _, unclosed⟩ := bind_eq_error_iff.mp failed
  · obtain ⟨⟨line, fault⟩, low, high⟩ := CaseAttributes.bounds_of_addAll states
    refine ⟨fun name own same => ?_, by omega, by omega⟩
    rw [fault] at same
    cases same
  · split at unclosed
    · cases unclosed
      exact ⟨fun _ _ same => (by cases same), by simp⟩
    · cases unclosed

/-- What is below a header is blamed on its first line. -/
theorem FixtureCase.line_of_read {header : CaseHeader}
    (failed : FixtureCase.read number header lines = .error error) : error.line = number := by
  obtain missing | ⟨own, behind, rfl, starts⟩ := CaseLines.exists_of_read number header lines
  · cases missing.symm.trans failed
    rfl
  · rw [own.read_all number header starts, CaseLines.outcome] at failed
    split at failed
    · cases failed
      rfl
    split at failed
    · cases failed
      rfl
    · cases failed

theorem bounds_of_readCase (failed : readCase number first rest = .error error) :
    number ≤ error.line ∧ error.line ≤ number + (first :: rest).length := by
  obtain headed | ⟨header, _, below⟩ := bind_eq_error_iff.mp failed
  · exact (CaseHeader.bounds_of_read headed).2
  · have line := FixtureCase.line_of_read (error_of_bind_ok below fun _ => nofun)
    omega

/-- What is wrong with a file is told with a line of the file or the one behind its last line. -/
theorem line_le_of_readFixture {text : String} (failed : readFixture text = .error error) :
    1 ≤ error.line ∧ error.line ≤ (breakLines text.toList).length + 1 := by
  obtain ⟨blanks, lines, cut, _, reads⟩ := exists_of_readFixture text
  obtain ⟨front, _, first, rest, rfl, _, _, here⟩ :=
    casesFrom_eq_error_iff.mp (reads.symm.trans failed)
  have bounds := bounds_of_readCase here
  rw [cut, List.length_append, List.length_append]
  omega

/-! ## Files that are refused for a literal -/

/-- Whether the tree of a case is refused for a literal: behind blank lines and cases that are read
stands the header of the case, then its input and its divider, and the tree. -/
def RefusesLiteral (text name : String) (line : Nat) : Prop :=
  ∃ blanks front cases first headerLines attributes, ∃ own : CaseLines, ∃ back,
    breakLines text.toList =
      blanks ++ (front ++ first :: (headerLines ++ (own.all ++ back))) ∧
    (∀ blank ∈ blanks, blank.all isBlank = true) ∧
    casesFrom (blanks.length + 1) front = .ok cases ∧
    line = blanks.length + 1 + front.length ∧
    CaseHeader.read line first headerLines = .ok ⟨name, attributes, headerLines.length⟩ ∧
    StartsCase back ∧ Outline.read own.treeText = .error .malformedLiteral

/-- The lines of a case are refused for a literal exactly if their tree is. -/
theorem CaseLines.outcome_eq_malformedLiteral_iff {own : CaseLines} {header : CaseHeader}
    {name : String} {line : Nat} :
    own.outcome number header = .error ⟨.malformedTree name .malformedLiteral, line⟩ ↔
      header.name = name ∧ number = line ∧
        Outline.read own.treeText = .error .malformedLiteral := by
  unfold outcome
  split
  · next empty =>
    rw [read_treeText_of_isEmpty empty]
    exact ⟨(fun failed => nomatch failed), fun ⟨_, _, refused⟩ => nomatch refused⟩
  · split
    · next fault refused =>
      rw [refused]
      constructor
      · intro failed
        cases failed
        exact ⟨rfl, rfl, rfl⟩
      · rintro ⟨rfl, rfl, same⟩
        cases same
        rfl
    · next reads =>
      rw [reads]
      exact ⟨(fun failed => nomatch failed), fun ⟨_, _, refused⟩ => nomatch refused⟩

/-- A file is refused for a literal exactly in the first case that cannot be read. -/
theorem readFixture_eq_malformedLiteral_iff {text name : String} {line : Nat} :
    readFixture text = .error ⟨.malformedTree name .malformedLiteral, line⟩ ↔
      RefusesLiteral text name line := by
  constructor
  · intro failed
    obtain ⟨blanks, lines, cut, blank, reads⟩ := exists_of_readFixture text
    obtain ⟨front, cases, first, rest, rfl, alone, _, here⟩ :=
      casesFrom_eq_error_iff.mp (reads.symm.trans failed)
    -- the header is refused for nothing that its tree could be refused for
    obtain headed | ⟨header, headed, below⟩ := bind_eq_error_iff.mp here
    · exact absurd rfl ((CaseHeader.bounds_of_read headed).1 name .malformedLiteral)
    obtain ⟨_, headerLines, behindHeader, rfl, whole, again⟩ := CaseHeader.exists_lines headed
    have below := error_of_bind_ok below fun _ => nofun
    rw [← whole, List.drop_left] at below
    obtain missing | ⟨own, back, rfl, starts⟩ :=
      CaseLines.exists_of_read (blanks.length + 1 + front.length) header behindHeader
    · rw [missing] at below
      cases below
    rw [own.read_all _ header starts] at below
    obtain ⟨rfl, rfl, refused⟩ := CaseLines.outcome_eq_malformedLiteral_iff.mp below
    have alone' := again []
    rw [List.append_nil] at alone'
    obtain ⟨name, attributes, extra⟩ := header
    subst whole
    exact ⟨blanks, front, cases, first, headerLines, attributes, own, back, cut, blank, alone, rfl,
      alone', starts, refused⟩
  · rintro ⟨blanks, front, cases, first, headerLines, attributes, own, back, cut, blank, alone, rfl,
      headed, starts, refused⟩
    have isHeader := (CaseHeader.exists_lines headed).1
    -- the cases in front are read alone, since a header starts behind them
    have startsFront : StartsCase (front ++ first :: (headerLines ++ (own.all ++ back))) :=
      (startsCase_of_casesFrom alone).append (fun _ same => Option.some.inj same ▸ isHeader)
    rw [readFixture_eq cut blank startsFront]
    refine casesFrom_eq_error_iff.mpr
      ⟨front, cases, first, _, rfl, alone, fun _ => isHeader, ?_⟩
    rw [readCase_append headed rfl own starts, CaseLines.outcome_eq_malformedLiteral_iff.mpr
      ⟨rfl, rfl, refused⟩]
    rfl

/-! ## Test runs -/

/-- A file that cannot be read stops a run. -/
theorem run_runFile_of_error (defaultGrammar : Option String) (path : FilePath) {content : String}
    (failed : readFixture (readText content) = .error error) (events : List Event) :
    (runFile defaultGrammar path content).run.run events = (.error (.ofError error), events) := by
  unfold runFile runFixture
  rw [failed]
  rfl

/-- A file that is read does not. -/
theorem run_runFile_of_ok (defaultGrammar : Option String) (path : FilePath) {content : String}
    {cases : List FixtureCase} (reads : readFixture (readText content) = .ok cases)
    (events : List Event) : ∃ results log,
    (runFile defaultGrammar path content).run.run events = (.ok ⟨path, results⟩, log) := by
  unfold runFile runFixture
  rw [reads]
  exact ⟨_, _, rfl⟩

/-- A run is stopped by a crash only for a literal. -/
theorem TestStop.ofError_eq_crash_iff {crash : Crash} : ofError error = .crash crash ↔
    crash = .malformedLiteral ∧ ∃ name, error.fault = .malformedTree name .malformedLiteral := by
  unfold ofError
  split
  · next name fault =>
    rw [fault]
    exact ⟨fun same => ⟨(TestStop.crash.inj same).symm, name, rfl⟩,
      fun ⟨same, _⟩ => congrArg _ same.symm⟩
  · next other =>
    exact ⟨(fun same => nomatch same), fun ⟨_, name, fault⟩ => absurd fault (other name)⟩

/-- The cases of a single entry are those of its file. -/
theorem run_runEntries_singleton (defaultGrammar : Option String) (path : FilePath)
    (content : String) :
    (runEntries defaultGrammar [(path, .file content)]).run.run [] =
      match (runFile defaultGrammar path content).run.run [] with
      | (.ok results, log) => (.ok [results], log)
      | (.error stop, log) => (.error stop, log) := by
  unfold runEntries
  rw [List.mapM_cons, List.mapM_nil]
  show StateT.run (ExceptT.run (runFile defaultGrammar path content >>= _)) [] = _
  rw [ExceptT.run_bind, StateT.run_bind]
  rcases (runFile defaultGrammar path content).run.run [] with ⟨found | stop, log⟩ <;> rfl

/-- A test run of a file crashes exactly if the file is refused for a literal. -/
theorem crash_testPath_iff {surroundings : Surroundings} {defaultGrammar : Option String}
    {path : FilePath} {content : String} {crash : Crash} :
    (testPath surroundings defaultGrammar path (.file content)).crash = some crash ↔
      crash = .malformedLiteral ∧ ∃ name line,
        readFixture (readText content) = .error ⟨.malformedTree name .malformedLiteral, line⟩ := by
  unfold testPath
  dsimp only
  rw [run_runEntries_singleton]
  cases reads : readFixture (readText content) with
  | ok cases =>
    -- cases that are read end in results, which crash nothing
    obtain ⟨results, log, ran⟩ := run_runFile_of_ok defaultGrammar path reads []
    rw [ran]
    dsimp only
    unfold testOutcome
    dsimp only
    split <;> exact ⟨(fun crashed => nomatch crashed), fun ⟨_, _, _, failed⟩ => nomatch failed⟩
  | error error =>
    have ran := run_runFile_of_error defaultGrammar path reads []
    rw [ran]
    -- of all faults a file may have, only that of a literal is let through
    have refused : (∃ name line, (Except.error error : Except _ (List FixtureCase)) =
        .error ⟨.malformedTree name .malformedLiteral, line⟩) ↔
        ∃ name, error.fault = .malformedTree name .malformedLiteral := by
      constructor
      · rintro ⟨name, line, same⟩
        cases same
        exact ⟨name, rfl⟩
      · rintro ⟨name, fault⟩
        exact ⟨name, error.line, by rw [← fault]⟩
    rw [refused, ← TestStop.ofError_eq_crash_iff]
    cases TestStop.ofError error with
    | fixture own => exact ⟨(fun crashed => nomatch crashed), (fun stopped => nomatch stopped)⟩
    | crash own =>
      exact ⟨fun crashed => congrArg _ (Option.some.inj crashed), fun stopped =>
        congrArg some (TestStop.crash.inj stopped)⟩

/-! ## All faults -/

/-- **What is wrong with an outline or a fixture file.** An outline is refused for a literal exactly
if it is read up to a literal that cannot be decoded. What is wrong with a file is told with one of
its lines or the one behind them. A file is refused for a literal exactly if the first case that
cannot be read has such an outline, and a test run of a file crashes in no other way. -/
theorem fixture_faults (text : String) :
    (Outline.read text = .error .malformedLiteral ↔ ∃ before content after kind,
      OutlinePiece.all text.toList = .ok (before ++ .literal content :: after) ∧
      Literal.decode? content = none ∧
      Outline.ofPieces (.node none) [] (before ++ [.literal []]) = .error (.unclosed kind)) ∧
    (∀ error, readFixture text = .error error →
      1 ≤ error.line ∧ error.line ≤ (breakLines text.toList).length + 1) ∧
    (∀ name line, readFixture text = .error ⟨.malformedTree name .malformedLiteral, line⟩ ↔
      RefusesLiteral text name line) ∧
    ∀ surroundings defaultGrammar path crash,
      (testPath surroundings defaultGrammar path (.file text)).crash = some crash ↔
        crash = .malformedLiteral ∧ ∃ name line, RefusesLiteral (readText text) name line := by
  refine ⟨Outline.read_eq_malformedLiteral_iff, fun _ => line_le_of_readFixture,
    fun _ _ => readFixture_eq_malformedLiteral_iff, fun surroundings defaultGrammar path
      crash => ?_⟩
  rw [crash_testPath_iff]
  simp only [readFixture_eq_malformedLiteral_iff]

set_option maxRecDepth 10000 in
/-- An escape that literals do not have is told with the line of its case. -/
theorem fixture_faults_escape :
    let text := "\n=== x ===\n---\n(a \"\\x\")"
    readFixture text = .error ⟨.malformedTree "x" .malformedLiteral, 2⟩ ∧
      2 ≤ (breakLines text.toList).length + 1 ∧ RefusesLiteral text "x" 2 := by
  intro text
  have failed : readFixture text = .error ⟨.malformedTree "x" .malformedLiteral, 2⟩ := by
    cbv
  obtain ⟨_, lines, refused, _⟩ := fixture_faults text
  exact ⟨failed, (lines _ failed).2, (refused "x" 2).mp failed⟩

set_option maxRecDepth 10000 in
/-- The outline is closed and its literal ends, but it is refused in a way that crashes a run. -/
theorem read_strayEscape :
    Outline.read "(a \"\\x\")" = .error .malformedLiteral ∧
      TestStop.ofError ⟨.malformedTree "x" .malformedLiteral, 1⟩ = .crash .malformedLiteral := by
  refine ⟨by cbv, rfl⟩

end DocGrammar
