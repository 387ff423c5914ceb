import DocGrammar.Proofs.Documents.Run
import DocGrammar.Proofs.Specs.Branches
import DocGrammar.Proofs.Specs.Lines
import DocGrammar.Specs.Document

/-! # Bodies of specs sections are read

Each line of the body of a section is laid out as text, and the rule of the section builds the nodes
of all lines from the tokens of these texts.

* **`SectionTree`** — the sections besides the feature.
* **`SectionTree.reads`** — the rule of a body reads the tokens of its lines.
* **`SectionTree.exists_bodyCode`** — the lines of a body have such tokens. -/

namespace DocGrammar

open Rule RuleState

/-! ## Sections -/

/-- A section besides the feature. -/
structure SectionTree where
  /-- Which section it is. -/
  part : SpecSection
  /-- Its lines. -/
  specs : List (SpecTree part)
  /-- An intent section holds one declaration. -/
  single : part = .intent → specs.length = 1

namespace SectionTree

/-- The node of a section. -/
def node (tree : SectionTree) : Node := .plain tree.part.nodeKind (tree.specs.map SpecTree.node)

/-- The nesting of the deepest line of a section. -/
def nest (tree : SectionTree) : Nat := (tree.specs.map SpecTree.nest).foldr max 0

end SectionTree

variable {part : SpecSection} {room : Nat}

/-- A number is at most the greatest of the numbers that it stands among. -/
theorem le_foldr_max {value : Nat} {values : List Nat} (member : value ∈ values) :
    value ≤ values.foldr max 0 := by
  induction values with
  | nil => exact absurd member List.not_mem_nil
  | cons first others ih =>
    rw [List.foldr_cons]
    rcases List.mem_cons.mp member with rfl | further
    · exact Nat.le_max_left _ _
    · exact Nat.le_trans (ih further) (Nat.le_max_right _ _)

/-- The greatest of some numbers is at most a bound of all of them. -/
theorem foldr_max_le {values : List Nat} {bound : Nat} (bounded : ∀ value ∈ values, value ≤ bound) :
    values.foldr max 0 ≤ bound := by
  induction values with
  | nil => exact Nat.zero_le _
  | cons first others ih =>
    rw [List.foldr_cons]
    exact Nat.max_le.mpr ⟨bounded first List.mem_cons_self,
      ih fun value member => bounded value (List.mem_cons_of_mem _ member)⟩

/-! ## Tokens of lines -/

/-- Tokens that say some lines, each with a line end behind it. -/
inductive SaysLines : List Token → List (SpecTree part) → Prop where
  /-- No tokens say no lines. -/
  | nil : SaysLines [] []
  /-- Tokens that say a line and its end before tokens that say others. -/
  | cons {line tokens : List Token} {feed : Token} {spec : SpecTree part}
      {specs : List (SpecTree part)} (told : Says line spec.symbols) (ends : feed.kind = .newline)
      (others : SaysLines tokens specs) : SaysLines (line ++ feed :: tokens) (spec :: specs)

theorem SaysLines.append {tokens more : List Token} {specs others : List (SpecTree part)}
    (first : SaysLines tokens specs) (second : SaysLines more others) :
    SaysLines (tokens ++ more) (specs ++ others) := by
  induction first with
  | nil => exact second
  | cons told ends _ ih =>
    rw [List.append_assoc, List.cons_append, List.cons_append]
    exact .cons told ends ih

/-- Tokens that say lines are no comments. -/
theorem SaysLines.kind_ne_comment {tokens : List Token} {specs : List (SpecTree part)}
    (told : SaysLines tokens specs) : ∀ token ∈ tokens, token.kind ≠ .comment := by
  induction told with
  | nil => exact fun _ member => absurd member List.not_mem_nil
  | cons line ends _ ih =>
    intro token member
    rcases List.mem_append.mp member with here | there
    · exact line.kind_ne (by decide) rfl (by decide) token here
    rcases List.mem_cons.mp there with rfl | further
    · rw [ends]
      decide
    · exact ih token further

/-- Every line starts with a word. -/
theorem SpecTree.exists_word (spec : SpecTree part) :
    ∃ kind text isWord assigned others, spec.symbols = .word kind text isWord assigned :: others ∧
      kind ∈ [TokenKind.identifier, .booleanLit] := by
  match spec with
  | .intent .. | .input .. | .success .. | .failure .. | .exampleCall .. | .comparison ..
  | .within .. | .format .. | .invariant (.call _) _ | .invariant (.access _) _ =>
    exact ⟨_, _, _, _, _, rfl, List.mem_cons_self⟩
  | .invariant (.boolean true) _ | .invariant (.boolean false) _ =>
    exact ⟨_, _, _, _, _, rfl, List.mem_cons_of_mem _ List.mem_cons_self⟩

theorem SpecTree.startsIn {spec : SpecTree part} {read : List Token}
    (told : Says read spec.symbols) : StartsIn [.identifier, .booleanLit] read := by
  obtain ⟨kind, text, isWord, assigned, others, same, member⟩ := spec.exists_word
  rw [same] at told
  exact told.startsIn member

theorem SaysLines.startsIn {tokens : List Token} {specs : List (SpecTree part)}
    (told : SaysLines tokens specs) {last : Token} (ends : last.kind = .endOfInput) :
    StartsIn [.identifier, .booleanLit, .endOfInput] (tokens ++ [last]) := by
  cases told with
  | nil => exact startsIn_cons ends (by decide)
  | cons line feed others =>
    rw [List.append_assoc]
    exact ((SpecTree.startsIn line).append _).mono (by decide)

namespace SpecSection

/-! ## Reading lines -/

/-- A line end is read. -/
theorem reads_endOfLine {feed : Token} (ends : feed.kind = .newline) (rest : List Token) :
    endOfLine.Reads room [feed] rest fun _ => True := by
  intro nonempty before nesting _
  simp [endOfLine, ends, nonempty]

/-- A round reads a line with its line end. -/
theorem reads_lineRound {spec : Rule Node} {line rest : List Token} {feed : Token} {node : Node}
    (reads : spec.Reads room line (feed :: rest) (·.bare = node))
    (starts : StartsIn [.identifier, .booleanLit] line) (isFeed : feed.kind = .newline)
    (avoids : AvoidsHead [.newline] rest) (found : List Node) :
    (lineRound spec found).Reads room (line ++ [feed]) rest
      (Round.IsAgain fun next => ∃ value, next = found ++ [value] ∧ value.bare = node) := by
  have skipped : skipNewlines.Reads room [] rest fun _ => True := reads_skip_none avoids
  intro nonempty before nesting enough
  obtain ⟨first, more, same, kind⟩ := starts
  -- a line starts with a word, so the round does not take it for the end
  have elsewhere : first.kind ≠ .endOfInput := by
    intro isLast
    rw [isLast] at kind
    exact absurd kind (by decide)
  rw [List.append_assoc, List.singleton_append]
  simp only [lineRound, ensures_bind]
  rw [same, List.cons_append, ensures_isAt]
  simp only [current_facing, elsewhere, decide_false, Bool.false_eq_true, if_false,
    ensures_bind]
  rw [← List.cons_append, ← same]
  refine reads.ensures (List.cons_ne_nil _ _) enough fun value holds => ?_
  refine (reads_endOfLine isFeed _).ensures nonempty enough fun _ _ => ?_
  refine skipped.ensures nonempty enough fun _ _ => ?_
  exact ⟨⟨value, rfl, holds⟩, by simp⟩

/-- The lines of a section end with the input. -/
theorem loopReads_end (spec : Rule Node) {last : Token} (ends : last.kind = .endOfInput)
    (found : List Node) :
    LoopReads (lineRound spec) found room [] [last]
      (fun values => values.map Node.bare = found.map Node.bare) := by
  refine .done fun _ before nesting _ => ?_
  simp [lineRound, ends, Round.IsDone]

/-- The lines of a section are read one after the other, each with its line end. -/
theorem loopReads_lines {tokens : List Token} {specs : List (SpecTree part)}
    (told : SaysLines tokens specs) (roomy : ∀ spec ∈ specs, spec.nest ≤ room) {last : Token}
    (ends : last.kind = .endOfInput) (found : List Node) :
    LoopReads (lineRound part.line) found room tokens [last]
      (fun values => values.map Node.bare = found.map Node.bare ++ specs.map SpecTree.node) := by
  induction told generalizing found with
  | nil =>
    rw [List.map_nil, List.append_nil]
    exact loopReads_end part.line ends found
  | @cons line tokens feed spec specs told isFeed others ih =>
    have avoids : AvoidsHead [.newline] (tokens ++ [last]) :=
      (others.startsIn ends).avoidsHead (by decide)
    have ended : StartsIn SpecTree.behindLine (feed :: (tokens ++ [last])) :=
      startsIn_cons isFeed List.mem_cons_self
    have reads : part.line.Reads room line (feed :: (tokens ++ [last])) (·.bare = spec.node) :=
      (spec.reads line _ told ended).mono (roomy spec List.mem_cons_self) fun _ holds => holds
    have round := reads_lineRound reads (SpecTree.startsIn told) isFeed avoids found
    have whole : line ++ feed :: tokens = (line ++ [feed]) ++ tokens := by
      rw [List.append_assoc, List.singleton_append]
    rw [whole]
    refine LoopReads.again (line ++ [feed]) round (by simp) ?_
    rintro _ ⟨value, rfl, holds⟩
    -- the lines behind are read onto what this one has added
    have later := ih (fun other member => roomy other (List.mem_cons_of_mem _ member))
      (found ++ [value])
    rw [List.map_append, List.map_singleton, holds, List.append_assoc] at later
    exact later

/-- A single line is read. -/
theorem reads_line {spec : Rule Node} {line : List Token} {feed last : Token} {node : Node}
    (reads : spec.Reads room line [feed, last] (·.bare = node))
    (starts : StartsIn [.identifier, .booleanLit] line) (isFeed : feed.kind = .newline)
    (ends : last.kind = .endOfInput) :
    (lines spec).Reads room (line ++ [feed]) [last]
      (fun values => values.map Node.bare = [node]) := by
  have avoids : AvoidsHead [.newline] [last] := by
    rw [avoidsHead_cons, ends]
    decide
  have skipped : skipNewlines.Reads room [] (line ++ [feed] ++ [last]) fun _ => True :=
    reads_skip_none (((starts.append _).append _).avoidsHead (by decide))
  have round := reads_lineRound reads starts isFeed avoids []
  refine skipped.bind fun _ _ => LoopReads.loop ?_
  rw [← List.append_nil (line ++ [feed])]
  refine LoopReads.again (line ++ [feed]) round (by simp) ?_
  rintro _ ⟨value, rfl, holds⟩
  rw [← holds]
  exact loopReads_end spec ends [value]

/-- All lines of a section are read. -/
theorem reads_lines {tokens : List Token} {specs : List (SpecTree part)}
    (told : SaysLines tokens specs) (roomy : ∀ spec ∈ specs, spec.nest ≤ room) {last : Token}
    (ends : last.kind = .endOfInput) :
    (lines part.line).Reads room tokens [last]
      (fun values => values.map Node.bare = specs.map SpecTree.node) := by
  have avoids : AvoidsHead [.newline] (tokens ++ [last]) :=
    (told.startsIn ends).avoidsHead (by decide)
  have skipped : skipNewlines.Reads room [] (tokens ++ [last]) fun _ => True :=
    reads_skip_none avoids
  exact skipped.bind fun _ _ => (loopReads_lines told roomy ends []).loop

/-- The single declaration of an intent section is read. -/
theorem reads_declaration {tokens : List Token} {spec : SpecTree .intent}
    (told : SaysLines tokens [spec]) {last : Token} (ends : last.kind = .endOfInput) :
    declaration.Reads room tokens [last] (·.bare = spec.node) := by
  cases told with
  | @cons line _ feed _ _ told isFeed others =>
    cases others
    have starts := SpecTree.startsIn told
    have behind : StartsIn SpecTree.behindLine [feed, last] :=
      startsIn_cons isFeed List.mem_cons_self
    have reads : SpecLine.intent.Reads room line [feed, last] (·.bare = spec.node) := by
      refine (spec.reads line _ told behind).mono ?_ fun _ holds => holds
      cases spec
      exact Nat.zero_le _
    have avoids : AvoidsHead [.newline] (line ++ [feed, last]) :=
      (starts.append _).avoidsHead (by decide)
    have avoidsBehind : AvoidsHead [.newline] [last] := by
      rw [avoidsHead_cons, ends]
      decide
    have skipped : skipNewlines.Reads room [] (line ++ [feed, last]) fun _ => True :=
      reads_skip_none avoids
    have skippedBehind : skipNewlines.Reads room [] [last] fun _ => True :=
      reads_skip_none avoidsBehind
    intro nonempty before nesting enough
    obtain ⟨first, more, same, kind⟩ := starts
    -- the declaration is not missing
    have elsewhere : first.kind ≠ .endOfInput := by
      intro isLast
      rw [isLast] at kind
      exact absurd kind (by decide)
    rw [List.append_assoc, List.singleton_append]
    simp only [declaration, ensures_bind]
    refine skipped.ensures (by simp) enough fun _ _ => ?_
    rw [same, List.cons_append, ensures_current]
    simp only [current_facing, elsewhere, if_false, ensures_bind]
    rw [← List.cons_append, ← same]
    refine reads.ensures (List.cons_ne_nil _ _) enough fun value holds => ?_
    refine (reads_endOfLine isFeed _).ensures nonempty enough fun _ _ => ?_
    refine skippedBehind.ensures nonempty enough fun _ _ => ?_
    simp [ends, holds]

end SpecSection

/-- The body of a section other than an intent is read if its lines are. -/
theorem SpecSection.reads_body (other : part ≠ .intent) {tokens rest : List Token}
    {nodes : List Node} (reads : (SpecSection.lines part.line).Reads room tokens rest
      (fun values => values.map Node.bare = nodes)) :
    part.body.Reads room tokens rest (·.bare = .plain part.nodeKind nodes) := by
  have body : part.body = do return .branch part.nodeKind (← SpecSection.lines part.line) := by
    cases part with
    | intent => exact absurd rfl other
    | _ => rfl
  rw [body]
  intro nonempty before nesting enough
  rw [ensures_bind]
  refine reads.ensures nonempty enough fun values holds => ?_
  refine ⟨?_, rfl⟩
  show (Node.branch part.nodeKind values).bare = _
  rw [Node.bare_branch, holds]

/-- The rule of a section reads all of its lines. -/
theorem SectionTree.reads (tree : SectionTree) {tokens : List Token}
    (told : SaysLines tokens tree.specs) {last : Token} (ends : last.kind = .endOfInput) :
    tree.part.body.Reads tree.nest tokens [last] (·.bare = tree.node) := by
  obtain ⟨part, specs, single⟩ := tree
  -- an intent section has a rule of its own
  by_cases isIntent : part = .intent
  · subst isIntent
    obtain ⟨spec, rfl⟩ := List.length_eq_one_iff.mp (single rfl)
    exact SpecLine.reads_branch (SpecSection.reads_declaration told ends) .intentSection
  · exact SpecSection.reads_body isIntent (SpecSection.reads_lines told
      (fun _ member => le_foldr_max (List.mem_map_of_mem member)) ends)

/-! ## Laying out lines -/

/-- The gaps of a row of symbols, without the outer ones. -/
def innerGaps (count : Nat) (gaps : Nat → Gap) (place : Nat) : Gap :=
  if place = 0 || place = count then ⟨[], rfl⟩ else gaps place

/-- The text of a line, given the gaps between its symbols. -/
def SpecTree.text (spec : SpecTree part) (spacing : List (Symbol .specs) → Nat → Gap) :
    List Char :=
  layout (innerGaps spec.symbols.length (spacing spec.symbols)) spec.symbols

variable {spacing : List (Symbol .specs) → Nat → Gap}

/-- The tokens of a line of a body are those of its text with a line end behind them. -/
theorem Specs.exists_lineCode {file : String} {line last : Token} {tokens : List Token}
    (lexed : codeTokens .specs file line.span.start line.value = .ok (tokens ++ [last]))
    (inner : ∀ token ∈ tokens, token.kind ≠ .endOfInput) (ends : last.kind = .endOfInput) :
    ∃ feed, Specs.lineCode file line = .ok (tokens ++ [feed]) ∧ feed.kind = .newline := by
  have kept : (tokens ++ [last]).filter (·.kind ≠ .endOfInput) = tokens := by
    rw [List.filter_append, List.filter_eq_self.mpr, List.filter_cons_of_neg, List.filter_nil,
      List.append_nil]
    · simp [ends]
    · exact fun token member => decide_eq_true (inner token member)
  unfold Specs.lineCode
  rw [lexed]
  show ∃ feed : Token, Except.ok (List.filter _ _ ++ _) = _ ∧ _
  rw [kept]
  exact ⟨_, rfl, rfl⟩

/-- A line of a body has tokens that say the line and its end. -/
theorem SpecTree.exists_lineCode (spec : SpecTree part) (file : String) {line : Token}
    (value : line.value = String.ofList (spec.text spacing)) :
    ∃ tokens feed, Specs.lineCode file line = .ok (tokens ++ [feed]) ∧ Says tokens spec.symbols ∧
      feed.kind = .newline := by
  obtain ⟨tokens, last, lexed, told, ends⟩ := codeTokens_layout file spec.symbols
    (innerGaps spec.symbols.length (spacing spec.symbols)) line.span.start (spec.isWritable.fits _)
  rw [CodeState.emitted_of_noFeed spec.isWritable.noFeed] at told
  rw [← SpecTree.text, ← value] at lexed
  obtain ⟨feed, outcome, isFeed⟩ :=
    Specs.exists_lineCode lexed (told.kind_ne (by decide) rfl (by decide)) ends
  exact ⟨tokens, feed, outcome, told, isFeed⟩

/-- Some lines of a body have tokens that say the lines and their ends. -/
theorem exists_linesCode (file : String) {lines : List Token} {specs : List (SpecTree part)}
    (values : lines.map Token.value = specs.map fun spec => String.ofList (spec.text spacing)) :
    ∃ rows, lines.mapM (Specs.lineCode file) = .ok rows ∧ SaysLines rows.flatten specs := by
  induction specs generalizing lines with
  | nil =>
    rw [List.map_nil, List.map_eq_nil_iff] at values
    subst values
    exact ⟨[], rfl, .nil⟩
  | cons spec specs ih =>
    rw [List.map_cons] at values
    obtain ⟨line, others, rfl, value, rest⟩ := List.map_eq_cons_iff.mp values
    obtain ⟨tokens, feed, lexed, told, ends⟩ := spec.exists_lineCode file value
    obtain ⟨rows, lexedRest, toldRest⟩ := ih rest
    refine ⟨(tokens ++ [feed]) :: rows, ?_, ?_⟩
    · rw [List.mapM_cons, lexed, lexedRest]
      rfl
    · rw [List.flatten_cons, List.append_assoc, List.singleton_append]
      exact .cons told ends toldRest

/-! ## Items of bodies -/

/-- The lines of an item. -/
def Item.lines : Item → List Token
  | .text block => block.lines
  | _ => []

/-- Whether an item is a text block. -/
def Item.isText : Item → Bool
  | .text _ => true
  | _ => false

/-- Text blocks that hold some lines have tokens that say the lines and their ends. -/
theorem exists_itemsCode (file : String) {items : List Item} {specs : List (SpecTree part)}
    (texts : ∀ item ∈ items, item.isText = true)
    (values : (items.flatMap Item.lines).map Token.value =
      specs.map fun spec => String.ofList (spec.text spacing)) :
    ∃ rows, items.mapM (Specs.itemCode file) = .ok rows ∧ SaysLines rows.flatten specs := by
  induction items generalizing specs with
  | nil =>
    rw [List.flatMap_nil, List.map_nil, eq_comm, List.map_eq_nil_iff] at values
    subst values
    exact ⟨[], rfl, .nil⟩
  | cons item items ih =>
    rw [List.flatMap_cons, List.map_append, eq_comm] at values
    -- the first block holds a first part of the lines
    obtain ⟨first, others, rfl, firstValues, otherValues⟩ := List.map_eq_append_iff.mp values
    obtain ⟨rows, lexed, told⟩ := exists_linesCode file firstValues.symm
    obtain ⟨more, lexedMore, toldMore⟩ := ih
      (fun other member => texts other (List.mem_cons_of_mem _ member)) otherValues.symm
    refine ⟨rows.flatten :: more, ?_, ?_⟩
    · cases item with
      | text block =>
        have code : Specs.itemCode file (.text block) = .ok rows.flatten := by
          show (do return (← block.lines.mapM (Specs.lineCode file)).flatten) = _
          rw [show block.lines.mapM (Specs.lineCode file) = .ok rows from lexed]
          rfl
        rw [List.mapM_cons, code, lexedMore]
        rfl
      | fenced block => exact absurd (texts _ List.mem_cons_self) Bool.false_ne_true
      | link link => exact absurd (texts _ List.mem_cons_self) Bool.false_ne_true
    · rw [List.flatten_cons]
      exact told.append toldMore

/-- The body of a section has tokens that say its lines, up to the end of the input. -/
theorem SectionTree.exists_bodyCode (tree : SectionTree) (file : String) (heading : Heading)
    {items : List Item} (texts : ∀ item ∈ items, item.isText = true)
    (values : (items.flatMap Item.lines).map Token.value =
      tree.specs.map fun spec => String.ofList (spec.text spacing)) :
    ∃ tokens last, Specs.bodyCode file heading items = .ok (tokens ++ [last]) ∧
      SaysLines tokens tree.specs ∧ last.kind = .endOfInput := by
  obtain ⟨rows, lexed, told⟩ := exists_itemsCode file texts values
  have code : ∃ last : Token, Specs.bodyCode file heading items = .ok (rows.flatten ++ [last]) ∧
      last.kind = .endOfInput := by
    unfold Specs.bodyCode
    rw [lexed]
    exact ⟨_, rfl, rfl⟩
  obtain ⟨last, outcome, ends⟩ := code
  exact ⟨rows.flatten, last, outcome, told, ends⟩

/-! ## Bodies below a heading -/

namespace Specs

variable {file : String} {heading : Heading} {kind : SpecSection} {items : List Item}
  {line last : Token} {tokens : List Token} {nodes : List Node}

/-- The tokens of a body of one line are those of the line, up to the end of the input. -/
theorem exists_bodyCode_line (heading : Heading) (lexed : lineCode file line = .ok tokens) :
    ∃ last, bodyCode file heading [.text ⟨line, []⟩] = .ok (tokens ++ [last]) ∧
      last.kind = .endOfInput := by
  have item : itemCode file (.text ⟨line, []⟩) = .ok [tokens].flatten := by
    show (do return (← [line].mapM (lineCode file)).flatten) = _
    rw [List.mapM_cons, lexed]
    rfl
  have code : [Item.text ⟨line, []⟩].mapM (itemCode file) = .ok [tokens] := by
    rw [List.mapM_cons, item, List.flatten_singleton]
    rfl
  unfold bodyCode
  rw [code]
  show ∃ last : Token, Except.ok ([tokens].flatten ++ [_]) = _ ∧ _
  rw [List.flatten_singleton]
  exact ⟨_, rfl, rfl⟩

/-- The body of a section is read if its rule reads the tokens. -/
theorem exists_bodySection (state : WalkState Bool)
    (code : bodyCode state.session.file heading items = .ok (tokens ++ [last]))
    (reads : kind.body.Reads room tokens [last] (·.bare = .plain kind.nodeKind nodes))
    (uncommented : ∀ token ∈ tokens ++ [last], token.kind ≠ .comment)
    (roomy : room ≤ state.session.nesting.room) :
    ∃ node, bodySection kind heading items state = .ok node state ∧
      node.bare = .plain kind.nodeKind nodes := by
  obtain ⟨body, holds, ran⟩ := WalkM.exists_runRule reads uncommented state roomy
  refine ⟨.spanning body.kind body.children
    (some (heading.span.through (body.span.getD heading.span))), ?_, ?_⟩
  · show EStateM.bind (WalkM.ofExcept (bodyCode state.session.file heading items)) _ state = _
    unfold EStateM.bind
    rw [code]
    show EStateM.bind (WalkM.runRule kind.body (tokens ++ [last])) _ state = _
    unfold EStateM.bind
    rw [ran]
    rfl
  · rw [Node.bare_spanning, ← Node.children_bare, ← Node.kind_bare, holds]
    rfl

/-- The title of a section is no title of a feature and opens the section. -/
theorem sectionOf?_title (part : SpecSection) :
    featureTail? part.title = none ∧ sectionOf? part.title = some part := by
  cases part <;> exact ⟨by decide, by decide⟩

/-- The nodes of a section with the title of a kind of its own are those of its body, and the walk
remembers that a section was opened. -/
theorem sectionNodes_body {part : Section} (headed : part.heading = some heading)
    (sound : part.failure = none) (level : heading.level = 2)
    (title : heading.title.value = kind.title) (state : WalkState Bool) :
    sectionNodes sectionRule part state =
      (do return [← bodySection kind heading part.items] : SpecsM (List Node))
        { state with memory := true } := by
  obtain ⟨noFeature, known⟩ := sectionOf?_title kind
  rw [← title] at noFeature known
  rw [sectionNodes_headed headed sound, headedSection_body noFeature known level]

end Specs

end DocGrammar
