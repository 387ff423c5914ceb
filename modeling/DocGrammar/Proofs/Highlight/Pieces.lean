import DocGrammar.Highlight.Piece
import DocGrammar.Proofs.Highlight.Patterns

/-! # Highlighting loses no text

A rule tiles what it reads when the painted segments show all of it and there is something to show.
Every rule of every table does, so a highlighter that applies the first rule that matches, without
asking how much it reads, comes to the end of every text, and the pieces put together are the text.

* **`HighlightRule.tiles`** — rules that show what they read, and read something.
* **`Highlighter.Runs`** — the steps of a highlighter that applies the first rule that matches.
* **`Highlighter.runs_painted`** — with rules that tile, the steps come to an end.
* **`Highlighter.runs_and_shows`** — the pieces of each table show the whole text. -/

namespace DocGrammar

/-! ## Rules -/

/-- The painted texts, one behind the other. -/
def shownText (texts : List PaintedText) : List Char :=
  (texts.map Prod.snd).flatten

@[simp] theorem shownText_nil : shownText [] = [] := rfl

@[simp] theorem shownText_cons (paint : Paint) (chars : List Char) (texts : List PaintedText) :
    shownText ((paint, chars) :: texts) = chars ++ shownText texts := rfl

@[simp] theorem shownText_append (texts others : List PaintedText) :
    shownText (texts ++ others) = shownText texts ++ shownText others := by
  simp [shownText]

/-- Texts without characters show nothing. -/
theorem shownText_filter (texts : List PaintedText) :
    shownText (texts.filter fun (_, chars) => !chars.isEmpty) = shownText texts := by
  induction texts with
  | nil => rfl
  | cons text others ih =>
    obtain ⟨paint, _ | ⟨char, chars⟩⟩ := text
    · exact ih
    · rw [List.filter_cons_of_pos (by simp), shownText_cons, shownText_cons, ih]

namespace HighlightRule

/-- Whether the painted segments show everything that the segments read. -/
def showsAll (segments : List (Pattern × Option Paint)) : Bool :=
  segments.all fun (pattern, paint) => paint.isSome || pattern.looks

/-- Whether some segment always reads something. -/
def readsSome (segments : List (Pattern × Option Paint)) : Bool :=
  segments.any fun (pattern, _) => pattern.consumes

/-- Whether a rule reads something, and shows everything that it reads. -/
def tiles (rule : HighlightRule) : Bool :=
  showsAll rule.segments && readsSome rule.segments

variable {place later : Place} {texts : List PaintedText}

/-- Segments that show everything show what is between the two ends of their match. -/
theorem reads_matchSegments {segments : List (Pattern × Option Paint)}
    (shows : showsAll segments = true)
    (matched : matchSegments segments place = some (texts, later)) :
    place.Reads (shownText texts) later ∧ (readsSome segments = true → shownText texts ≠ []) := by
  induction segments generalizing place texts with
  | nil =>
    cases matched
    exact ⟨Place.reads_nil _, fun no => absurd no Bool.false_ne_true⟩
  | cons segment others ih =>
    obtain ⟨pattern, paint⟩ := segment
    obtain ⟨shown, shows⟩ := Bool.and_eq_true_iff.mp shows
    obtain ⟨read, middle, reads, goes, consumed, looked⟩ := pattern.goesOn_run matched
    obtain ⟨⟨painted, final⟩, behind, same⟩ := Option.map_eq_some_iff.mp goes
    cases same
    obtain ⟨further, more⟩ := ih shows behind
    -- An unpainted segment only looks, so its text is empty whether it is shown or not.
    have here : shownText (paint.map fun shown => (shown, place.between middle)).toList = read := by
      cases paint with
      | none => exact (looked (by simpa using shown)).symm
      | some paint => simp [reads.between_eq]
    rw [shownText_append, here]
    refine ⟨reads.append further, fun some => ?_⟩
    rcases Bool.or_eq_true_iff.mp some with first | other
    · exact List.append_ne_nil_of_left_ne_nil (consumed first) _
    · exact List.append_ne_nil_of_right_ne_nil _ (more other)

/-- A rule that tiles shows what it reads, and comes to a later place. -/
theorem reads_match? {rule : HighlightRule} (tiles : rule.tiles = true)
    (matched : rule.match? place = some (texts, later)) :
    place.Reads (shownText texts) later ∧ later.rest.length < place.rest.length := by
  obtain ⟨shows, some⟩ := Bool.and_eq_true_iff.mp tiles
  obtain ⟨reads, more⟩ := reads_matchSegments shows matched
  refine ⟨reads, ?_⟩
  rw [reads.length_eq]
  exact Nat.lt_add_of_pos_left (List.length_pos_iff.mpr (more some))

end HighlightRule

/-! ## Steps of a highlighter -/

namespace Highlighter

/-- What the first rule that matches at a place makes of it: the texts, the place behind them and
the change of the open states. -/
def applied? (rules : List HighlightRule) (place : Place) :
    Option (List PaintedText × Place × StateChange) :=
  rules.findSome? fun rule =>
    (rule.match? place).map fun (texts, later) => (texts, later, rule.change)

/-- The steps of a highlighter from some open states and a place to the end of the text, and the
texts painted on the way. The first rule that matches is applied even if it reads nothing; where no
rule matches, a line feed closes all open states, and any other character is an error. -/
inductive Runs (highlighter : Highlighter) :
    List HighlightState → Place → List PaintedText → Prop
  | applied {states : List HighlightState} {place later : Place} {change : StateChange}
      {texts painted : List PaintedText}
      (found :
        applied? (highlighter.rules (states.headD .root)) place = some (texts, later, change))
      (run : Runs highlighter (change.apply states) later painted) :
      Runs highlighter states place (texts ++ painted)
  | lineFeed {states : List HighlightState} {place : Place} {rest : List Char}
      {painted : List PaintedText}
      (found : applied? (highlighter.rules (states.headD .root)) place = none)
      (text : place.rest = '\n' :: rest)
      (run : Runs highlighter [.root] (Place.step '\n' rest) painted) :
      Runs highlighter states place ((.scope .whitespace, ['\n']) :: painted)
  | other {states : List HighlightState} {place : Place} {char : Char} {rest : List Char}
      {painted : List PaintedText}
      (found : applied? (highlighter.rules (states.headD .root)) place = none)
      (text : place.rest = char :: rest) (visible : char ≠ '\n')
      (run : Runs highlighter states (Place.step char rest) painted) :
      Runs highlighter states place ((.scope .error, [char]) :: painted)
  | ended {states : List HighlightState} {place : Place}
      (found : applied? (highlighter.rules (states.headD .root)) place = none)
      (text : place.rest = []) :
      Runs highlighter states place []

/-- Whether all rules of a table tile. -/
def Tiles (highlighter : Highlighter) : Prop :=
  ∀ state, ∀ rule ∈ highlighter.rules state, rule.tiles = true

section

variable {highlighter : Highlighter} {states : List HighlightState} {place : Place}
  {rules : List HighlightRule}

/-- With rules that tile, the first that matches is the first that consumes something. -/
theorem applied?_eq (tile : ∀ rule ∈ rules, rule.tiles = true) :
    applied? rules place =
      (firstMatch? place rules).map fun found => (found.texts, found.later, found.change) := by
  induction rules with
  | nil => rfl
  | cons rule others ih =>
    have others := ih fun other member => tile other (List.mem_cons_of_mem _ member)
    rw [applied?, List.findSome?_cons, firstMatch?]
    cases matched : rule.match? place with
    | none => exact others
    | some found =>
      have shorter := (HighlightRule.reads_match? (tile rule List.mem_cons_self) matched).2
      simp [shorter]

/-- What a step of rules that tile shows is what it reads. -/
theorem reads_applied? {texts : List PaintedText} {later : Place} {change : StateChange}
    (tile : ∀ rule ∈ rules, rule.tiles = true)
    (found : applied? rules place = some (texts, later, change)) :
    place.Reads (shownText texts) later ∧ later.rest.length < place.rest.length := by
  obtain ⟨rule, member, same⟩ := List.exists_of_findSome?_eq_some found
  obtain ⟨⟨shown, behind⟩, matched, same⟩ := Option.map_eq_some_iff.mp same
  cases same
  exact HighlightRule.reads_match? (tile rule member) matched

/-- The steps of a highlighter are determined. -/
theorem Runs.unique {painted others : List PaintedText}
    (run : highlighter.Runs states place painted) (other : highlighter.Runs states place others) :
    painted = others := by
  induction run generalizing others with
  -- each step asks for what its rules find and for the next character, and no two agree
  | applied found _ ih =>
    cases other with
    | applied found' run' =>
      rw [found] at found'
      cases found'
      rw [ih run']
    | lineFeed found' => rw [found] at found'; cases found'
    | other found' => rw [found] at found'; cases found'
    | ended found' => rw [found] at found'; cases found'
  | lineFeed found text _ ih =>
    cases other with
    | applied found' => rw [found] at found'; cases found'
    | lineFeed _ text' run' =>
      rw [text] at text'
      cases text'
      rw [ih run']
    | other _ text' visible => rw [text] at text'; cases text'; exact absurd rfl visible
    | ended _ text' => rw [text] at text'; cases text'
  | other found text visible _ ih =>
    cases other with
    | applied found' => rw [found] at found'; cases found'
    | lineFeed _ text' => rw [text] at text'; cases text'; exact absurd rfl visible
    | other _ text' _ run' =>
      rw [text] at text'
      cases text'
      rw [ih run']
    | ended _ text' => rw [text] at text'; cases text'
  | ended found text =>
    cases other with
    | applied found' => rw [found] at found'; cases found'
    | lineFeed _ text' => rw [text] at text'; cases text'
    | other _ text' => rw [text] at text'; cases text'
    | ended => rfl

/-- With rules that tile, the steps come to the end of the text. -/
theorem runs_painted (tile : highlighter.Tiles) (states : List HighlightState) (place : Place) :
    highlighter.Runs states place (highlighter.painted states place) := by
  -- Every step makes the rest of the text shorter.
  induction size : place.rest.length using Nat.strongRecOn generalizing states place with
  | ind size ih =>
    subst size
    have same : applied? (highlighter.rules (states.headD .root)) place = _ :=
      applied?_eq (tile (states.headD .root))
    rw [painted]
    cases first : firstMatch? place (highlighter.rules (states.headD .root)) with
    | some found =>
      rw [first] at same
      exact .applied same (ih _ found.shorter _ _ rfl)
    | none =>
      rw [first] at same
      dsimp only
      split
      next text => exact .ended same text
      next char rest text =>
        have run := ih _ (by simp [Place.step, text])
          (if char = '\n' then [.root] else states) (Place.step char rest) rfl
        by_cases feed : char = '\n'
        · subst feed
          exact .lineFeed same text run
        · rw [unmatched, if_neg feed]
          rw [if_neg feed] at run ⊢
          exact .other same text feed run

/-- What the steps show is the text. -/
theorem Runs.shownText_eq {painted : List PaintedText} (tile : highlighter.Tiles)
    (run : highlighter.Runs states place painted) : shownText painted = place.rest := by
  induction run with
  | applied found _ ih =>
    rw [shownText_append, ih]
    exact (reads_applied? (tile _) found).1.symm
  | lineFeed _ text _ ih => rw [shownText_cons, ih, text]; rfl
  | other _ text _ _ ih => rw [shownText_cons, ih, text]; rfl
  | ended _ text => exact text.symm

/-- The painted texts of a text show all of it. -/
theorem shownText_paintedTexts (tile : highlighter.Tiles) (text : List Char) :
    shownText (highlighter.paintedTexts text) = text := by
  rw [paintedTexts, shownText_filter]
  exact (runs_painted tile [.root] (Place.start text)).shownText_eq tile

end

/-! ## The tables -/

theorem tiles_pseudoCode : pseudoCode.Tiles
  | .root => by decide
  | .doubleQuoted => by decide
  | .singleQuoted => by decide

theorem tiles_specs : specs.Tiles := fun _ =>
  (by decide : ∀ rule ∈ specsRules, rule.tiles = true)

theorem tiles_pseudoKernel : pseudoKernel.Tiles := fun _ =>
  (by decide : ∀ rule ∈ pseudoKernelRules, rule.tiles = true)

/-! ## Pieces -/

/-- The text of some pieces, one behind the other. -/
def piecesText (pieces : List Piece) : List Char :=
  (pieces.map Piece.text).flatten

theorem piecesText_append (pieces others : List Piece) :
    piecesText (pieces ++ others) = piecesText pieces ++ piecesText others := by
  simp [piecesText]

/-- The pieces of statements show all of them. -/
theorem piecesText_statementPieces (text : List Char) :
    piecesText (statementPieces text) = text := by
  refine Eq.trans ?_ (shownText_paintedTexts tiles_pseudoCode text)
  rw [statementPieces]
  generalize pseudoCode.paintedTexts text = painted
  induction painted with
  | nil => rfl
  | cons first others ih =>
    obtain ⟨scope | _, chars⟩ := first
    · exact congrArg (chars ++ ·) ih
    · exact congrArg (chars ++ ·) ih

/-- The pieces of a text show all of it. -/
theorem piecesText_pieces {highlighter : Highlighter} (tile : highlighter.Tiles)
    (text : List Char) : piecesText (highlighter.pieces text) = text := by
  refine Eq.trans ?_ (shownText_paintedTexts tile text)
  rw [pieces]
  generalize highlighter.paintedTexts text = painted
  induction painted with
  | nil => rfl
  | cons first others ih =>
    obtain ⟨scope | _, chars⟩ := first
    · exact congrArg (chars ++ ·) ih
    · rw [List.flatMap_cons, piecesText_append, piecesText_statementPieces, ih, shownText_cons]

end Highlighter

/-- A text without a byte order mark at its start keeps all of its characters. -/
theorem dropByteOrderMark_eq {chars : List Char} (unmarked : chars.head? ≠ some '\uFEFF') :
    dropByteOrderMark chars = chars := by
  cases chars with
  | nil => rfl
  | cons first rest =>
    rw [dropByteOrderMark, if_neg]
    rintro rfl
    exact unmarked rfl

namespace Highlighter

/-- The table of each kind of document, and that of statements, comes to the end of every text and
of all statements inside it. The pieces show the text that does not start with a byte order mark as
it is, but for its line ends: each is a line feed, and one stands at the end. -/
theorem runs_and_shows (highlighter : Highlighter)
    (table : highlighter ∈ [specs, pseudoKernel, pseudoCode]) (text : String)
    (unmarked : text.toList.head? ≠ some '\uFEFF') :
    (∀ states place, highlighter.Runs states place (highlighter.painted states place)) ∧
    (∀ states place, pseudoCode.Runs states place (pseudoCode.painted states place)) ∧
    ((highlighter.pieces (highlightInput text)).map Piece.text).flatten =
      trimWhile (· = '\n') (normalizeBreaks text.toList) ++ ['\n'] := by
  have tile : highlighter.Tiles := by
    rcases List.mem_cons.mp table with rfl | table
    · exact tiles_specs
    rcases List.mem_cons.mp table with rfl | table
    · exact tiles_pseudoKernel
    rw [List.mem_singleton.mp table]
    exact tiles_pseudoCode
  refine ⟨runs_painted tile, runs_painted tiles_pseudoCode, ?_⟩
  have input : highlightInput text =
      trimWhile (· = '\n') (normalizeBreaks text.toList) ++ ['\n'] := by
    rw [highlightInput, dropByteOrderMark_eq unmarked]
  exact (piecesText_pieces tile _).trans input

/-- A fenced block with a string left open, in three kinds of line ends. -/
theorem runs_and_shows_fence :
    pseudoKernel ∈ [specs, pseudoKernel, pseudoCode] ∧
    "\r\n\x60\x60\x60pseudo\r\nx = 'a\rb\n\x60\x60\x60\r\n\n".toList.head? ≠ some '\uFEFF' ∧
    ((pseudoKernel.pieces (highlightInput
        "\r\n\x60\x60\x60pseudo\r\nx = 'a\rb\n\x60\x60\x60\r\n\n")).map Piece.text).flatten =
      "\x60\x60\x60pseudo\nx = 'a\nb\n\x60\x60\x60\n".toList := by
  have table : pseudoKernel ∈ [specs, pseudoKernel, pseudoCode] :=
    List.mem_cons_of_mem _ List.mem_cons_self
  refine ⟨table, by decide, (runs_and_shows pseudoKernel table _ (by decide)).2.2.trans ?_⟩
  decide

end Highlighter

end DocGrammar
