import DocGrammar.Proofs.Specs.Documents
import DocGrammar.Proofs.Specs.Placed

/-! # Types of inputs

A type on a line becomes the type of an input wherever it is parsed on its own, and nothing else
does: the tokens of the line are those of the text behind a name and a colon, and the rule of inputs
has to read all of them as a type.

* **`exists_readsSection_inputs`** — the section of an input.
* **`inputs_yields`** — an input whose type is derived is read.
* **`exists_form_of_inputs`** — an input that is read has a type. -/

namespace DocGrammar

open Rule RuleState

/-! ## The section of an input -/

/-- The row of an input named `x`, given the characters of its type. -/
def inputRow (chars : List Char) : List Char := 'x' :: ':' :: ' ' :: chars

/-- The document whose only input is named `x`. -/
def inputText (text : String) : String := "## Inputs\nx: " ++ text

variable {chars : List Char} {file text : String} {limit : Int}

/-- Without white space around it, the row of an input ends with its type or with the colon. -/
theorem exists_trim_inputRow (trimmed : trim chars = chars) :
    ∃ rest, trim (inputRow chars) = 'x' :: ':' :: rest ∧
      (rest = ' ' :: chars ∨ chars = [] ∧ rest = []) := by
  by_cases empty : chars = []
  · subst empty
    exact ⟨[], by decide, .inr ⟨rfl, rfl⟩⟩
  · obtain ⟨_, front, last, rfl, plain⟩ := ends_of_trim empty trimmed
    refine ⟨' ' :: (front ++ [last]), ?_, .inl rfl⟩
    exact trim_of_ends rfl (by decide)
      (show inputRow (front ++ [last]) = 'x' :: ':' :: ' ' :: front ++ [last] from rfl) plain

/-- No carriage return is dropped from the row of an input. -/
theorem dropReturn_inputRow (trimmed : trim chars = chars) :
    dropReturn (inputRow chars) = inputRow chars := by
  by_cases empty : chars = []
  · subst empty
    decide
  · obtain ⟨_, front, last, rfl, plain⟩ := ends_of_trim empty trimmed
    refine if_neg ?_
    rw [show inputRow (front ++ [last]) = 'x' :: ':' :: ' ' :: front ++ [last] from rfl,
      List.getLast?_concat, Option.some.injEq]
    rintro rfl
    exact absurd plain (by decide)

/-- The document of an input has two rows. -/
theorem toList_inputText (text : String) : (inputText text).toList =
    headingRow 2 SpecSection.inputs.title.toList ++ '\n' :: inputRow text.toList := by
  have head : "## Inputs\nx: ".toList =
      headingRow 2 SpecSection.inputs.title.toList ++ ['\n', 'x', ':', ' '] := by decide
  rw [inputText, String.toList_append, head, List.append_assoc]
  rfl

/-- The document of an input is a single section with one line. -/
theorem exists_readsSection_inputs (file : String) (trimmed : trim text.toList = text.toList)
    (clean : isCleanText text.toList = true) :
    ∃ (heading : Heading) (line : Token) (rest : List Char),
      ReadsSection file (inputText text) ⟨some heading, [.text ⟨line, []⟩], none⟩ ∧
      heading.level = 2 ∧ heading.title.value = SpecSection.inputs.title ∧
      line.value = String.ofList ('x' :: ':' :: rest) ∧
      (rest = ' ' :: text.toList ∨ text.toList = [] ∧ rest = []) := by
  have cleanRow : isCleanText (inputRow text.toList) = true := by
    simp only [inputRow, isCleanText_cons, clean, Bool.and_true]
    decide
  obtain ⟨rest, trimmedRow, behind⟩ := exists_trim_inputRow trimmed
  obtain ⟨heading, line, reads, level, title, value⟩ :=
    exists_readsSection_line file (isTitle_title .inputs) (by decide : 1 ≤ 2) (by decide)
      (dropReturn_inputRow trimmed) cleanRow rfl (by decide)
  -- the text of the document, as a heading and a row
  have whole : String.ofList (['\n'].intercalate
      [headingRow 2 SpecSection.inputs.title.toList, inputRow text.toList]) = inputText text := by
    rw [← String.toList_inj, String.toList_ofList, toList_inputText]
    simp [List.intercalate]
  rw [whole] at reads
  rw [String.ofList_toList] at title
  rw [trimmedRow] at value
  exact ⟨heading, line, rest, reads, level, title, value, behind⟩

/-! ## Inputs whose type is derived -/

/-- The name of the input. -/
def inputName : SpecName := ⟨"x", isWord_x, KeywordTable.kindOf_of_not_mem (by decide)⟩

/-- The tree of a document whose only input has a type. -/
def inputDocument (type : Node) : Node :=
  .plain .sourceFile [.plain .inputsSection [.plain .inputSpec [.plainLeaf .identifier "x", type]]]

/-- The line of an input begins with its name and a colon, behind which its type is left. -/
theorem begins_input {rest : List Char}
    (behind : rest = ' ' :: chars ∨ chars = [] ∧ rest = []) :
    Begins ('x' :: ':' :: rest) [.name inputName, .colon] chars := by
  have left : IsApart rest ∧ Begins rest ([] : List (Symbol .specs)) chars := by
    rcases behind with rfl | ⟨rfl, rfl⟩
    · exact ⟨(isApart_cons _ _).mpr (.inl rfl), .space rfl (.nil chars)⟩
    · exact ⟨isApart_nil, .nil []⟩
  have colon : Begins (':' :: rest) [(.colon : Symbol .specs)] chars :=
    .cons .colon rfl (by decide) (Symbol.stops_of_isApart rfl left.1) left.2
  have outside : isWordChar ':' = false := isWordChar_of_ascii (by decide)
  exact .cons (.name inputName) rfl (by decide) (Symbol.stops_name _ outside _) colon

/-- The rule of a section reads an input whose type is derived. -/
theorem reads_inputs {symbols : List (Symbol .specs)} {type : Node} {nest : Nat}
    (derives : DerivesType symbols type nest) {tokens : List Token} {feed last : Token}
    (told : Says tokens (.name inputName :: .colon :: symbols)) (isFeed : feed.kind = .newline)
    (ends : last.kind = .endOfInput) :
    SpecSection.inputs.body.Reads nest (tokens ++ [feed]) [last]
      (·.bare = .plain .inputsSection [.plain .inputSpec [.plainLeaf .identifier "x", type]]) := by
  have line := SpecLine.reads_inputOf inputName (derives.reads (Nat.le_refl nest)) tokens
    [feed, last] told (startsIn_cons isFeed (by decide))
  have starts : StartsIn [.identifier, .booleanLit] tokens := told.startsIn (by decide)
  exact SpecSection.reads_body SpecSection.noConfusion
    (SpecSection.reads_line line starts isFeed ends)

/-- **An input whose type is derived is read**, if the limit admits the nesting of the type. -/
theorem inputs_yields (positive : 1 ≤ limit) (trimmed : trim text.toList = text.toList)
    {symbols : List (Symbol .specs)} {type : Node} {nest : Nat}
    (begins : Begins text.toList symbols []) (derives : DerivesType symbols type nest)
    (shallow : (nest : Int) ≤ limit) :
    (parseDocument .builtIn file limit (some Grammar.specs.name) (inputText text)).Yields
      (inputDocument type) := by
  obtain ⟨heading, line, rest, reads, level, title, value, behind⟩ :=
    exists_readsSection_inputs file trimmed (begins.isCleanText rfl)
  -- the line says the name and the colon, and then what the text says
  have whole := (begins_input behind).trans begins
  have value' : line.value.toList = 'x' :: ':' :: rest := by rw [value, String.toList_ofList]
  rw [← value'] at whole
  obtain ⟨tokens, last, lexed, told, ends⟩ := whole.exists_codeTokens file line.span.start
  obtain ⟨feed, lined, isFeed⟩ :=
    Specs.exists_lineCode lexed (told.kind_ne (by decide) rfl (by decide)) ends
  obtain ⟨finish, code, isEnd⟩ := Specs.exists_bodyCode_line heading lined
  have uncommented : ∀ token ∈ tokens ++ [feed] ++ [finish], token.kind ≠ .comment := by
    have inner : ∀ token ∈ tokens, token.kind ≠ .comment :=
      told.kind_ne (by decide) rfl (by decide)
    simp only [List.forall_mem_append, List.forall_mem_singleton, isFeed, isEnd]
    exact ⟨⟨inner, TokenKind.noConfusion⟩, TokenKind.noConfusion⟩
  have enough : nest ≤ (Grammar.specs.begun file limit true).session.nesting.room := by
    show nest ≤ limit.toNat - 0
    omega
  obtain ⟨node, outcome, bare⟩ := Specs.exists_bodySection (Grammar.specs.begun file limit true)
    code (reads_inputs derives told isFeed isEnd) uncommented enough
  have nodes : sectionNodes Specs.sectionRule ⟨some heading, [.text ⟨line, []⟩], none⟩
      (Grammar.specs.begun file limit false) =
      .ok [node] (Grammar.specs.begun file limit true) := by
    rw [Specs.sectionNodes_body rfl rfl level title]
    show EStateM.bind (Specs.bodySection .inputs heading _) _ (Grammar.specs.begun file limit true)
      = _
    unfold EStateM.bind
    rw [outcome]
    rfl
  have yields := walksBy_specs.parse_yields positive reads nodes rfl
  rw [List.map_singleton, bare] at yields
  exact yields

/-! ## Inputs that are read -/

/-- A rule ensures what holds anyway. -/
theorem Rule.ensures_of_holds {α : Type} {holds : Prop} (proof : holds) (rule : Rule α)
    (state : RuleState) : rule.Ensures state (fun _ _ => holds) fun _ _ => True :=
  (ensures_trivial rule state).mono (fun _ _ _ => proof) fun _ _ _ => trivial

/-- The end of a line is one, or that of the input. -/
theorem SpecSection.ensures_endOfLine (state : RuleState) :
    endOfLine.Ensures state
      (fun _ _ => state.cursor.current.kind = .newline ∨ state.cursor.current.kind = .endOfInput)
      fun _ _ => True := by
  simp only [endOfLine, ensures_bind, ensures_current, ensures_ite, ensures_advance, ensures_pure,
    ensures_unexpected]
  by_cases feed : state.cursor.current.kind = .newline
  · rw [if_pos feed]
    exact .inl feed
  · rw [if_neg feed]
    by_cases ends : state.cursor.current.kind = .endOfInput
    · rw [if_neg (not_not_intro ends)]
      exact .inr ends
    · rw [if_pos ends]
      trivial

/-- Behind the name of an input its whole line is read as a type. -/
theorem ensures_inputs {name colon feed last : Token} {tokens : List Token}
    (named : name.kind = .identifier) (marked : colon.kind = .colon)
    (isFeed : feed.kind = .newline) (isEnd : last.kind = .endOfInput)
    (inner : ∀ token ∈ tokens, token.kind ≠ .newline ∧ token.kind ≠ .endOfInput)
    (nesting : Nesting) :
    SpecSection.inputs.body.Ensures
      (.facing [] (name :: colon :: (tokens ++ [feed, last])) nesting)
      (fun _ _ => ∃ form : TypeForm, form.tokens = tokens ∧ form.nest ≤ nesting.room)
      fun _ _ => True := by
  have skipped : skipNewlines.Reads 0 [] (name :: colon :: (tokens ++ [feed, last]))
      fun _ => True := reads_skip_none ((avoidsHead_cons _ _ _).mpr (by rw [named]; decide))
  -- the rule of types stops somewhere in the line, and the line has to end there
  have ends : EndsInput (tokens ++ [feed, last]) :=
    EndsInput.append ⟨by rw [isFeed]; decide, isEnd⟩ fun token member => (inner token member).2
  show (do return Node.branch .inputsSection (← SpecSection.lines SpecLine.input) :
    Rule Node).Ensures _ _ _
  rw [ensures_bind, SpecSection.lines, ensures_bind]
  refine skipped.ensures (List.cons_ne_nil _ _) (Nat.zero_le _) fun _ _ => ?_
  rw [Rule.loop, ensures_bind, ensures_get, Rule.iterate, ensures_bind]
  simp only [SpecSection.lineRound, SpecLine.input, identifier, ensures_bind, ensures_isAt]
  simp [named, marked]
  have nonempty : tokens ++ [feed, last] ≠ [] := ends.ne_nil
  refine (TypeExpr.yields_rule _ (by rw [rest_facing nonempty]; exact ends)).mono ?_
    fun _ _ _ => trivial
  rintro value middle ⟨read, moved, form, rfl, rfl, nest⟩
  refine (SpecSection.ensures_endOfLine middle).mono (fun _ _ stops => ?_) fun _ _ _ => trivial
  have split := moved.rest
  rw [rest_facing nonempty] at split
  rw [nesting_facing] at nest
  have whole := form.tokens_eq_of_line split inner isFeed stops
  -- nothing that follows matters
  refine (ensures_trivial skipNewlines _).mono (fun _ _ _ => ?_) fun _ _ _ => trivial
  exact Rule.ensures_of_holds ⟨form, whole, nest⟩ _ _

/-- A text holds no forbidden characters if it is read as the type of an input. -/
theorem isCleanText_of_inputs (isLine : '\n' ∉ text.toList)
    (trimmed : trim text.toList = text.toList) {source : Document}
    (read : readDocument file (inputText text) = .ok source) : isCleanText text.toList = true := by
  have isTitle := isTitle_title .inputs
  have rows : feedLines (inputText text).toList =
      [headingRow 2 SpecSection.inputs.title.toList, inputRow text.toList] := by
    have line : '\n' ∉ inputRow text.toList := by simpa [inputRow] using isLine
    rw [toList_inputText, feedLines_append (isRow_headingRow isTitle 2).noFeed,
      feedLines_of_noFeed line]
  obtain ⟨tokens, lexed, _⟩ := exists_of_bind_ok read
  obtain ⟨behind, inner, _⟩ := exists_of_documentTokens lexed
  rw [rows] at inner
  have allowed := isForbidden_of_tokensOfLines inner (inputRow text.toList) (by simp)
  rw [dropReturn_inputRow trimmed] at allowed
  refine (isCleanText_iff _).mpr fun char member => allowed char ?_
  exact List.mem_cons_of_mem _ (List.mem_cons_of_mem _ (List.mem_cons_of_mem _ member))

/-- The tokens of a body of one line stem from those of the line. -/
theorem Specs.exists_of_bodyCode_line {heading : Heading} {line : Token} {code : List Token}
    (read : bodyCode file heading [.text ⟨line, []⟩] = .ok code) :
    ∃ tokens, codeTokens .specs file line.span.start line.value = .ok tokens := by
  obtain ⟨_, items, _⟩ := exists_of_bind_ok read
  rw [List.mapM_cons] at items
  obtain ⟨_, item, _⟩ := exists_of_bind_ok items
  obtain ⟨_, lines, _⟩ := exists_of_bind_ok item
  rw [show (⟨line, []⟩ : TextBlock).lines = [line] from rfl, List.mapM_cons] at lines
  obtain ⟨_, first, _⟩ := exists_of_bind_ok lines
  obtain ⟨tokens, lexed, _⟩ := exists_of_bind_ok first
  exact ⟨tokens, lexed⟩

/-- The tokens of the body of an input are those of its type behind its name and a colon. -/
theorem exists_of_bodyCode_input (isLine : '\n' ∉ chars) {heading : Heading} {line : Token}
    {rest : List Char} (value : line.value = String.ofList ('x' :: ':' :: rest))
    (behind : rest = ' ' :: chars ∨ chars = [] ∧ rest = []) {code : List Token}
    (read : Specs.bodyCode file heading [.text ⟨line, []⟩] = .ok code) :
    ∃ (state : CodeState) (tokens : List Token) (last name colon feed finish : Token),
      codeTokensFrom .specs file state chars = .ok (tokens ++ [last]) ∧
      (∀ token ∈ tokens, token.kind ≠ .newline ∧ token.kind ≠ .endOfInput) ∧
      code = name :: colon :: (tokens ++ [feed, finish]) ∧ name.kind = .identifier ∧
      colon.kind = .colon ∧ feed.kind = .newline ∧ finish.kind = .endOfInput := by
  have value' : line.value.toList = 'x' :: ':' :: rest := by rw [value, String.toList_ofList]
  obtain ⟨all, lexed⟩ := Specs.exists_of_bodyCode_line read
  obtain ⟨head, state, told, split⟩ := (begins_input behind).exists_tokens file
    (.start line.span.start)
  obtain ⟨name, _, rfl, tellsName, saysColon⟩ := told.of_cons
  obtain ⟨colon, rfl, tellsColon⟩ := saysColon.of_singleton
  have named : name.kind = .identifier := tellsName.kind
  have marked : colon.kind = .colon := tellsColon.kind
  -- where the text behind the colon does not become tokens, neither does the line
  cases lexedType : codeTokensFrom .specs file state chars with
  | error diagnostic =>
    rw [codeTokens, value', split, lexedType] at lexed
    cases lexed
  | ok found =>
    obtain ⟨tokens, last, rfl, isEnd, inner⟩ :=
      exists_last_of_codeTokensFrom KeywordTable.isSeparate_specs isLine lexedType
    have lexed' : codeTokens .specs file line.span.start line.value =
        .ok (name :: colon :: tokens ++ [last]) := by
      rw [codeTokens, value', split, lexedType]
      rfl
    have innerLine : ∀ token ∈ name :: colon :: tokens, token.kind ≠ .endOfInput := by
      simp only [List.forall_mem_cons, named, marked]
      exact ⟨TokenKind.noConfusion, TokenKind.noConfusion,
        fun token member => (inner token member).2⟩
    obtain ⟨feed, lined, isFeed⟩ := Specs.exists_lineCode lexed' innerLine isEnd
    obtain ⟨finish, bodied, finishes⟩ := Specs.exists_bodyCode_line heading lined
    obtain rfl := Except.ok.inj (bodied.symm.trans read)
    refine ⟨state, tokens, last, name, colon, feed, finish, lexedType, inner, ?_, named, marked,
      isFeed, finishes⟩
    simp

/-- **An input that is read has a type**: behind its name and the colon, the tokens of its line but
for comments are those of a type that the limit admits. -/
theorem exists_form_of_inputs (positive : 1 ≤ limit) (isLine : '\n' ∉ text.toList)
    (trimmed : trim text.toList = text.toList)
    (succeeds : (parseDocument .builtIn file limit (some Grammar.specs.name)
      (inputText text)).isSuccess = true) :
    ∃ (form : TypeForm) (state : CodeState) (tokens : List Token) (last : Token),
      codeTokensFrom .specs file state text.toList = .ok (tokens ++ [last]) ∧
      form.tokens = WalkM.seen tokens ∧ (form.nest : Int) ≤ limit := by
  obtain ⟨source, read⟩ := exists_readDocument_of_isSuccess succeeds
  obtain ⟨heading, line, rest, reads, level, title, value, behind⟩ :=
    exists_readsSection_inputs file trimmed (isCleanText_of_inputs isLine trimmed read)
  obtain ⟨nodes, next, outcome⟩ := walksBy_specs.exists_of_isSuccess positive reads succeeds
  rw [Specs.sectionNodes_body rfl rfl level title] at outcome
  obtain ⟨node, _, bodied, _⟩ := WalkM.exists_of_bind outcome
  obtain ⟨code, body, later, lexed, runs, _⟩ := Specs.exists_of_bodySection bodied
  obtain ⟨state, tokens, last, name, colon, feed, finish, lexedType, inner, rfl, named, marked,
    isFeed, finishes⟩ := exists_of_bodyCode_input isLine value behind lexed
  -- comments may stand only in the type
  have seen : WalkM.seen (name :: colon :: (tokens ++ [feed, finish])) =
      name :: colon :: (WalkM.seen tokens ++ [feed, finish]) := by
    simp [WalkM.seen, named, marked, isFeed, finishes]
  have innerSeen : ∀ token ∈ WalkM.seen tokens,
      token.kind ≠ .newline ∧ token.kind ≠ .endOfInput :=
    fun token member => inner token (List.mem_of_mem_filter member)
  have ensured := ensures_inputs named marked isFeed finishes innerSeen
    (Grammar.specs.begun file limit true).session.nesting
  unfold Rule.Ensures at ensured
  rw [WalkM.runRule_eq _ (by rw [seen]; exact List.cons_ne_nil _ _), seen] at runs
  split at runs
  · next value final outcome =>
    have ran : SpecSection.inputs.body (.facing [] (name :: colon :: (WalkM.seen tokens ++
        [feed, finish])) (Grammar.specs.begun file limit true).session.nesting) =
        .ok value final := outcome
    rw [ran] at ensured
    obtain ⟨form, same, nest⟩ := ensured
    refine ⟨form, state, tokens, last, lexedType, same, ?_⟩
    have room : form.nest ≤ limit.toNat - 0 := nest
    omega
  · cases runs

end DocGrammar
