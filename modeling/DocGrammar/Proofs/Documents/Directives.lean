import DocGrammar.Proofs.Specs.Isolation
import Mathlib.Data.List.TakeWhile

/-! # Directives

The grammar that a text names can be detected on the first line of the text alone. A parse finds it
on another way: it cuts the text into tokens and takes the directive off them. Both ways lead to the
same grammar, and where a line opens like a directive but names none, the parse is refused.

* **`grammarNameOf?_eq_some_iff`** — the lines that name a grammar.
* **`readDocument_of_detectGrammar`**, **`readDocument_of_undirected`**,
  **`readDocument_of_malformed`** — the directive that is read from the tokens of a text.
* **`parseDocument_follows_detectGrammar`** — a parse selects the grammar that is detected. -/

namespace DocGrammar

/-! ## Lines that name a grammar -/

/-- A text that can stand as a name in a directive: a lower-case letter, then lower-case letters,
digits and hyphens. -/
structure IsDirectiveName (name : List Char) : Prop where
  /-- It starts with a letter. -/
  starts : (name.head?.map isGrammarNameStart).getD false = true
  /-- It holds letters, digits and hyphens. -/
  continues : ∀ char ∈ name, isGrammarNameChar char = true

/-- The line of a directive with a name. -/
def directiveLine (name : List Char) : List Char :=
  directiveOpening ++ (name ++ directiveClosing)

/-- The lines that name a grammar are those of a directive, up to a final line feed. -/
theorem grammarNameOf?_eq_some_iff {line : List Char} {name : String} :
    grammarNameOf? line = some name ↔
      IsDirectiveName name.toList ∧
        ∃ tail, isAtLineEnd tail = true ∧ line = directiveLine name.toList ++ tail := by
  constructor
  · intro names
    unfold grammarNameOf? at names
    simp only [Option.bind_eq_bind, Option.bind_eq_some_iff] at names
    obtain ⟨behind, opening, tail, closing, shaped⟩ := names
    split at shaped
    · next fits =>
      cases shaped
      rw [Bool.and_eq_true] at fits
      have cut := List.isPrefixOf?_eq_some_iff_append_eq.mp opening
      have cut' := List.isPrefixOf?_eq_some_iff_append_eq.mp closing
      rw [String.toList_ofList]
      refine ⟨⟨fits.1, fun char => List.mem_takeWhile_imp⟩, tail, fits.2, ?_⟩
      rw [directiveLine, List.append_assoc, List.append_assoc, cut', takeWhile_append_drop, cut]
    · cases shaped
  · rintro ⟨isName, tail, ends, rfl⟩
    -- the name ends at the space behind it
    have spelled : (name.toList ++ (directiveClosing ++ tail)).takeWhile isGrammarNameChar =
        name.toList := by
      rw [List.takeWhile_append_of_pos isName.continues]
      exact List.append_nil _
    have opening : directiveOpening.isPrefixOf? (directiveLine name.toList ++ tail) =
        some (name.toList ++ (directiveClosing ++ tail)) :=
      List.isPrefixOf?_eq_some_iff_append_eq.mpr (by simp only [directiveLine, List.append_assoc])
    have closing : directiveClosing.isPrefixOf? (directiveClosing ++ tail) = some tail :=
      List.isPrefixOf?_eq_some_iff_append_eq.mpr rfl
    unfold grammarNameOf?
    rw [opening]
    simp only [Option.bind_eq_bind, Option.bind_some, spelled, List.drop_left, closing]
    rw [if_pos (by rw [isName.starts, ends]; rfl), String.ofList_toList]

/-! ## The first line -/

/-- The first line of a text. -/
def firstLine (text : String) : List Char := (feedLines text.toList).headD []

/-- Whether the first line of a text opens like a directive. -/
def OpensLikeDirective (text : String) : Prop := ['#', '!'] <+: firstLine text

/-- The carriage return that may end a line is no part of how a directive opens. -/
theorem opens_dropReturn_iff (line : List Char) :
    ['#', '!'] <+: dropReturn line ↔ ['#', '!'] <+: line := by
  constructor
  · exact fun opens => opens.trans (dropReturn_isPrefix line)
  · intro opens
    rcases dropReturn_cases line with same | returned
    · rwa [same] at opens
    · rw [returned] at opens
      -- the return is not the exclamation mark, so both marks stand before it
      rcases List.prefix_concat_iff.mp opens with whole | inner
      · exact absurd (congrArg List.getLast? whole) (by simp)
      · exact inner

/-- A text that names a grammar opens like a directive. -/
theorem opensLikeDirective_of_detectGrammar {text grammar : String}
    (names : detectGrammar text = some grammar) : OpensLikeDirective text := by
  obtain ⟨_, tail, _, line⟩ := grammarNameOf?_eq_some_iff.mp names
  refine (opens_dropReturn_iff _).mp ?_
  show ['#', '!'] <+: dropReturn ((feedLines text.toList).headD [])
  rw [line, directiveLine, List.append_assoc]
  exact (show ['#', '!'] <+: directiveOpening from ⟨_, rfl⟩).trans (List.prefix_append _ _)

/-! ## The directive of a document -/

section

variable {file text : String} {tokens : List Token}

/-- The token of the first line of a text. -/
def firstLineToken (file text : String) : Token :=
  Document.directiveToken file (dropReturn (firstLine text))

/-- The shape of the first line tells whether a text opens like a directive. -/
theorem opensLikeDirective_iff {raw : List Char} {others : List (List Char)}
    (rows : feedLines text.toList = raw :: others) :
    LineShape.ofLine true (dropReturn raw) = .shebang ↔ OpensLikeDirective text := by
  rw [LineShape.ofLine_eq_shebang_iff, opens_dropReturn_iff, OpensLikeDirective, firstLine, rows]
  rfl

/-- The directive of a document is the one that is detected in its text. -/
theorem readDocument_of_detectGrammar {grammar : String}
    (reads : documentTokens file text = .ok tokens) (names : detectGrammar text = some grammar) :
    ∃ source, readDocument file text = .ok source ∧
      source.directive = some ⟨firstLineToken file text, grammar⟩ := by
  rw [readDocument_of_documentTokens reads]
  obtain ⟨behind, inner, rfl⟩ := exists_of_documentTokens reads
  obtain ⟨raw, others, rows⟩ := List.exists_cons_of_ne_nil (feedLines_ne_nil text.toList)
  have directs := (opensLikeDirective_iff rows).mpr (opensLikeDirective_of_detectGrammar names)
  have first : firstLine text = raw := by rw [firstLine, rows]; rfl
  have named : grammarNameOf? (dropReturn raw) = some grammar := first ▸ names
  obtain ⟨source, cuts, _, directive, _⟩ := Document.ofTokens_named rows directs named inner
  refine ⟨source, cuts, ?_⟩
  rw [directive, firstLineToken, first]

/-- A text that does not open like a directive has none. -/
theorem readDocument_of_undirected (reads : documentTokens file text = .ok tokens)
    (plain : ¬OpensLikeDirective text) :
    ∃ source, readDocument file text = .ok source ∧ source.directive = none := by
  rw [readDocument_of_documentTokens reads]
  obtain ⟨behind, inner, rfl⟩ := exists_of_documentTokens reads
  obtain ⟨raw, others, rows⟩ := List.exists_cons_of_ne_nil (feedLines_ne_nil text.toList)
  have undirected : ∀ row ∈ (feedLines text.toList).head?,
      LineShape.ofLine true (dropReturn row) ≠ .shebang := by
    intro row first
    rw [rows] at first
    cases first
    exact fun directs => plain ((opensLikeDirective_iff rows).mp directs)
  obtain ⟨source, cuts, _, directive, _⟩ := Document.ofTokens_undirected undirected inner
  exact ⟨source, cuts, directive⟩

/-- A text that opens like a directive and names no grammar is refused at its first line. -/
theorem readDocument_of_malformed (reads : documentTokens file text = .ok tokens)
    (opens : OpensLikeDirective text) (unnamed : detectGrammar text = none) :
    readDocument file text =
      .error ⟨.malformedShebang (firstLineToken file text).value,
        (firstLineToken file text).span⟩ := by
  rw [readDocument_of_documentTokens reads]
  obtain ⟨behind, inner, rfl⟩ := exists_of_documentTokens reads
  obtain ⟨raw, others, rows⟩ := List.exists_cons_of_ne_nil (feedLines_ne_nil text.toList)
  have first : firstLine text = raw := by rw [firstLine, rows]; rfl
  have nameless : grammarNameOf? (dropReturn raw) = none := first ▸ unnamed
  have directs := (opensLikeDirective_iff rows).mpr opens
  rw [Document.ofTokens_unnamed rows directs nameless inner, firstLineToken, first]
  rfl

end

/-! ## Detection and parsing -/

/-- A parse of a text whose tokens can be read agrees with what is detected on the first line of the
text. If the line opens like a directive and names no grammar, the parse is refused with one
diagnostic, which quotes the line, and it has no grammar. Otherwise its grammar is the one that is
detected, and the default grammar if there is none. -/
theorem parseDocument_follows_detectGrammar (registry : Registry) (file : String) (limit : Int)
    (positive : 1 ≤ limit) (defaultGrammar : Option String) (text : String) (tokens : List Token)
    (reads : documentTokens file text = .ok tokens) :
    let parse := parseDocument registry file limit defaultGrammar text
    (OpensLikeDirective text ∧ detectGrammar text = none →
      parse.tree = none ∧ parse.grammar = none ∧
      ∃ diagnostic, parse.diagnostics = [diagnostic] ∧ diagnostic.kind = .selection ∧
        diagnostic.cause = .malformedShebang (String.ofList (dropReturn (firstLine text))) ∧
        diagnostic.span = (firstLineToken file text).span) ∧
    (¬(OpensLikeDirective text ∧ detectGrammar text = none) →
      parse.grammar = (detectGrammar text).or defaultGrammar) := by
  intro parse
  constructor
  · rintro ⟨opens, unnamed⟩
    have refused : parse = _ := parseDocument_of_refused registry defaultGrammar positive
      (readDocument_of_malformed reads opens unnamed)
    rw [refused]
    exact ⟨rfl, rfl, _, rfl, rfl, rfl, rfl⟩
  · intro sound
    -- a name that is detected is that of the directive; otherwise there is no directive
    cases names : detectGrammar text with
    | some grammar =>
      obtain ⟨source, read, directive⟩ := readDocument_of_detectGrammar reads names
      have parsed : parse = _ := parseDocument_of_read registry defaultGrammar positive read
      rw [parsed, Specs.grammar_parseSections, directive]
      rfl
    | none =>
      have plain : ¬OpensLikeDirective text := fun opens => sound ⟨opens, names⟩
      obtain ⟨source, read, directive⟩ := readDocument_of_undirected reads plain
      have parsed : parse = _ := parseDocument_of_read registry defaultGrammar positive read
      rw [parsed, Specs.grammar_parseSections, directive]
      rfl

/-- A first line that opens like a directive and names nothing, behind which a text could go on. -/
theorem parseDocument_follows_detectGrammar_marks : (1 : Int) ≤ defaultLimit ∧
    (documentTokens "t" "#!\r\na").isOk = true ∧
    (parseDocument .builtIn "t" defaultLimit (some "specs") "#!\r\na").grammar = none := by
  have positive : (1 : Int) ≤ defaultLimit := by decide
  have lexes : (documentTokens "t" "#!\r\na").isOk = true := by cbv
  have opens : OpensLikeDirective "#!\r\na" := by
    refine List.isPrefixOf_iff_prefix.mp ?_
    cbv
  have unnamed : detectGrammar "#!\r\na" = none := by cbv
  refine ⟨positive, lexes, ?_⟩
  cases reads : documentTokens "t" "#!\r\na" with
  | error diagnostic =>
    rw [reads] at lexes
    cases lexes
  | ok tokens =>
    have agrees := parseDocument_follows_detectGrammar .builtIn "t" defaultLimit positive
      (some "specs") "#!\r\na" tokens reads
    exact (agrees.1 ⟨opens, unnamed⟩).2.1

end DocGrammar
