import DocGrammar.Proofs.Specs.Syntax

/-! # Lines of specs sections are read

Whatever tokens say the symbols of a line, the rule of its section builds the node of the line.

* **`SpecLine.reads_value`**, **`SpecLine.reads_call`** — the parts of lines are read.
* **`SpecTree.reads`** — every line is read by the rule of its section. -/

namespace DocGrammar

open Rule RuleState

namespace SpecLine

variable {room : Nat} {read rest : List Token} {token : Token}

/-! ## Leaves and numbers -/

/-- A rule that looks at the current token first. -/
theorem reads_current {α : Type} {next : Token → Rule α} {others : List Token} {good : α → Prop}
    (reads : (next token).Reads room (token :: others) rest good) :
    (current >>= next).Reads room (token :: others) rest good := by
  intro nonempty before nesting enough
  rw [ensures_bind, ensures_current]
  exact reads nonempty before nesting enough

/-- A node around the node that a rule builds. -/
theorem reads_branch {inner : Rule Node} {node : Node}
    (reads : inner.Reads room read rest (·.bare = node)) (kind : NodeKind) :
    (do return Node.branch kind [← inner] : Rule Node).Reads room read rest
      (·.bare = .plain kind [node]) := by
  intro nonempty before nesting enough
  rw [ensures_bind]
  refine reads.ensures nonempty enough fun value holds => ?_
  refine ⟨?_, rfl⟩
  show (Node.branch kind [value]).bare = _
  rw [Node.bare_branch, List.map_singleton, holds]

/-- A symbol is read as a leaf. -/
theorem exists_leaf {symbol : Symbol .specs} (kind : NodeKind) (told : Says read [symbol])
    (room : Nat) (rest : List Token) :
    ∃ token, read = [token] ∧ token.kind = symbol.kind ∧
      (Rule.leaf kind).Reads room [token] rest (·.bare = .plainLeaf kind symbol.value) := by
  obtain ⟨token, rfl, tells⟩ := told.of_singleton
  refine ⟨token, rfl, tells.kind, fun nonempty before nesting _ => ?_⟩
  simp [Rule.leaf, nonempty, tells.value]

/-- A number is read with its sign. -/
theorem exists_number (numeral : SignedNumeral) (told : Says read numeral.symbols)
    (room : Nat) (rest : List Token) :
    ∃ token others, read = token :: others ∧ (token.kind = .numberLit ∨ token.kind = .minus) ∧
      number.Reads room (token :: others) rest (·.bare = numeral.node) := by
  obtain ⟨isNegative, digits⟩ := numeral
  cases isNegative with
  | false =>
    obtain ⟨token, rfl, tells⟩ := told.of_singleton
    have kind : token.kind = .numberLit := tells.kind
    have value : token.value = String.ofList digits.chars := tells.value
    refine ⟨token, [], rfl, .inl kind, fun nonempty before nesting _ => ?_⟩
    simp [number, kind, value, nonempty]
    rfl
  | true =>
    obtain ⟨sign, _, rfl, tellsSign, saysDigits⟩ := told.of_cons
    obtain ⟨token, rfl, tells⟩ := saysDigits.of_singleton
    have isSign : sign.kind = .minus := tellsSign.kind
    have kind : token.kind = .numberLit := tells.kind
    have value : token.value = String.ofList digits.chars := tells.value
    refine ⟨sign, [token], rfl, .inr isSign, fun nonempty before nesting _ => ?_⟩
    simp [number, isSign, kind, value, nonempty]
    rfl

theorem kind_truthSymbol (value : Bool) : (truthSymbol value).kind = .booleanLit := by
  cases value <;> rfl

/-- A choice that reads names and strings as leaves, and numbers with their sign, and puts a node
around each, reads every literal. -/
theorem reads_literal {choose : Token → Rule Node} (kind : NodeKind)
    (names : ∀ token : Token, token.kind = .identifier →
      choose token = do return .branch kind [← Rule.leaf .identifier])
    (strings : ∀ token : Token, token.kind = .stringLit →
      choose token = do return .branch kind [← Rule.leaf .stringLiteral])
    (numbers : ∀ token : Token, token.kind = .numberLit ∨ token.kind = .minus →
      choose token = do return .branch kind [← number])
    (tree : LiteralTree) (told : Says read tree.symbols) :
    (current >>= choose).Reads room read rest (·.bare = .plain kind [tree.node]) := by
  cases tree with
  | name word =>
    obtain ⟨token, rfl, isName, reads⟩ := exists_leaf .identifier told room rest
    refine reads_current ?_
    rw [names token isName]
    exact reads_branch reads kind
  | string content =>
    obtain ⟨token, rfl, isString, reads⟩ := exists_leaf .stringLiteral told room rest
    refine reads_current ?_
    rw [strings token isString]
    exact reads_branch reads kind
  | number numeral =>
    obtain ⟨token, others, rfl, isNumber, reads⟩ := exists_number numeral told room rest
    refine reads_current ?_
    rw [numbers token isNumber]
    exact reads_branch reads kind

/-! ## Values -/

/-- A value is read. -/
theorem reads_value (tree : ValueTree) (told : Says read tree.symbols) :
    value.Reads room read rest (·.bare = tree.node) := by
  unfold value
  cases tree with
  | literal tree =>
    refine reads_literal .value ?_ ?_ ?_ tree told
    · intro token kind
      simp only [kind]
    · intro token kind
      simp only [kind]
    · rintro token (kind | kind) <;> simp only [kind]
  | boolean truth =>
    obtain ⟨token, rfl, kind, reads⟩ := exists_leaf .booleanLiteral told room rest
    rw [kind_truthSymbol] at kind
    refine reads_current ?_
    simp only [kind]
    exact reads_branch reads .value

/-! ## Calls -/

/-- A property of an object is read. -/
theorem reads_property (tree : AssignmentTree) (told : Says read tree.symbols) :
    property.Reads room read rest (·.bare = tree.node) := by
  obtain ⟨token, _, rfl, tells, saysColon⟩ := told.of_cons
  obtain ⟨colon, body, rfl, tellsColon, saysValue⟩ := saysColon.of_cons
  intro nonempty before nesting enough
  have isColon : colon.kind = .colon := tellsColon.kind
  simp only [property, List.cons_append]
  simp only [ensures_bind]
  refine (reads_identifier tree.name tells _).ensures (List.cons_ne_nil _ _) enough
    fun name nameHolds => ?_
  simp [isColon, nonempty]
  refine (reads_value tree.value saysValue).ensures nonempty enough fun bound boundHolds => ?_
  rw [nameHolds, boundHolds]
  exact ⟨rfl, by simp⟩

/-- An object is read. -/
theorem reads_object (properties : List AssignmentTree) {opening closing : Token}
    {inner : List Token} (closes : closing.kind = .rightBrace)
    (told : Says inner (separated .comma (properties.map AssignmentTree.symbols))) :
    object.Reads room (opening :: (inner ++ [closing])) rest
      (·.bare = .plain .objectLiteral (properties.map AssignmentTree.node)) := by
  have list : (delimited .rightBrace comma property).Reads room inner (closing :: rest)
      (fun values => values.map Node.bare = properties.map AssignmentTree.node) := by
    refine reads_delimited properties ?_ ?_ (by decide) ?_ told closes rest
    · exact fun tree _ read rest told _ => reads_property tree told
    · exact fun token rest kind _ => reads_comma kind rest
    · exact fun tree _ => ⟨_, _, rfl, TokenKind.noConfusion⟩
  intro nonempty before nesting enough
  simp only [object, List.cons_append, List.append_assoc]
  simp
  refine list.ensures (List.cons_ne_nil _ _) enough fun values holds => ?_
  simp [holds, nonempty]

/-- An argument is read. -/
theorem reads_argument (tree : ArgumentTree) (told : Says read tree.symbols) :
    argument.Reads room read rest (·.bare = tree.node) := by
  unfold argument
  cases tree with
  | literal tree =>
    refine reads_literal .argument ?_ ?_ ?_ tree told
    · intro token kind
      simp only [kind]
    · intro token kind
      simp only [kind]
    · rintro token (kind | kind) <;> simp only [kind]
  | object properties =>
    obtain ⟨opening, inner, closing, rfl, tellsOpening, saysProperties, tellsClosing⟩ :=
      told.of_enclosed
    have opens : opening.kind = .leftBrace := tellsOpening.kind
    refine reads_current ?_
    simp only [opens]
    exact reads_branch (reads_object properties tellsClosing.kind saysProperties) .argument

theorem exists_argumentSymbols (tree : ArgumentTree) :
    ∃ first others, tree.symbols = first :: others ∧ first.kind ≠ .rightParen := by
  match tree with
  | .literal (.name _) => exact ⟨_, _, rfl, TokenKind.noConfusion⟩
  | .literal (.string _) => exact ⟨_, _, rfl, TokenKind.noConfusion⟩
  | .literal (.number ⟨false, _⟩) => exact ⟨_, _, rfl, TokenKind.noConfusion⟩
  | .literal (.number ⟨true, _⟩) => exact ⟨_, _, rfl, TokenKind.noConfusion⟩
  | .object _ => exact ⟨_, _, rfl, TokenKind.noConfusion⟩

/-- A call is read. -/
theorem reads_call (tree : CallTree) (told : Says read tree.symbols) :
    call.Reads room read rest (·.bare = tree.node) := by
  obtain ⟨token, _, rfl, tells, saysOpening⟩ := told.of_cons
  obtain ⟨opening, inner, closing, rfl, tellsOpening, saysArguments, tellsClosing⟩ :=
    saysOpening.of_enclosed
  have opens : opening.kind = .leftParen := tellsOpening.kind
  have list : (delimited .rightParen comma argument).Reads room inner (closing :: rest)
      (fun values => values.map Node.bare = tree.arguments.map ArgumentTree.node) := by
    refine reads_delimited tree.arguments ?_ ?_ (by decide) ?_ saysArguments tellsClosing.kind rest
    · exact fun tree _ read rest told _ => reads_argument tree told
    · exact fun token rest kind _ => reads_comma kind rest
    · exact fun tree _ => exists_argumentSymbols tree
  intro nonempty before nesting enough
  simp only [call, List.cons_append, List.append_assoc]
  simp only [ensures_bind]
  refine (reads_identifier tree.name tells _).ensures (List.cons_ne_nil _ _) enough
    fun name nameHolds => ?_
  simp [opens]
  refine list.ensures (List.cons_ne_nil _ _) enough fun values holds => ?_
  simp [holds, nameHolds, nonempty]
  rfl

/-! ## Chains of names -/

/-- Behind the first name of a chain each further one stands behind a mark. -/
theorem loopReads_chain {mark : Symbol .specs} (others : List SpecName)
    (told : Says read (others.flatMap fun name => [mark, .name name]))
    (stops : AvoidsHead [mark.kind] rest) (found : List Node) :
    LoopReads (chainRound mark.kind identifier) found room read rest
      (fun values => values.map Node.bare = found.map Node.bare ++ others.map SpecName.node) := by
  induction others generalizing read found with
  | nil =>
    cases told
    refine .done fun nonempty before nesting _ => ?_
    obtain ⟨next, others, rfl⟩ := List.exists_cons_of_ne_nil nonempty
    have other : next.kind ≠ mark.kind := stops.kind_ne (by simp)
    simp [chainRound, other, Round.IsDone]
  | cons name others ih =>
    rw [List.flatMap_cons] at told
    obtain ⟨pair, more, rfl, saysPair, saysMore⟩ := told.of_append
    obtain ⟨sign, _, rfl, tellsSign, saysName⟩ := saysPair.of_cons
    obtain ⟨token, rfl, tells⟩ := saysName.of_singleton
    -- a round takes the mark and the name behind it
    have round : (chainRound mark.kind identifier found).Reads room [sign, token] (more ++ rest)
        (Round.IsAgain fun next => ∃ value, next = found ++ [value] ∧ value.bare = name.node) := by
      intro nonempty before nesting enough
      simp only [chainRound, List.cons_append, List.nil_append]
      simp [tellsSign.kind]
      refine (reads_identifier name tells _).ensures nonempty enough fun value holds => ?_
      exact ⟨⟨value, rfl, holds⟩, rfl⟩
    refine LoopReads.again [sign, token] round (List.cons_ne_nil _ _) ?_
    rintro _ ⟨value, rfl, holds⟩
    have later := ih saysMore (found ++ [value])
    rw [List.map_append, List.map_singleton, holds, List.append_assoc] at later
    exact later

/-- A chain of names is read up to what is no mark of it. -/
theorem reads_chain {mark : Symbol .specs} (names : NameChain)
    (told : Says read (names.symbols mark)) (stops : AvoidsHead [mark.kind] rest) :
    (chain mark.kind identifier).Reads room read rest
      (fun values => values.map Node.bare = names.nodes) := by
  obtain ⟨token, more, rfl, tells, saysMore⟩ := told.of_cons
  have first : identifier.Reads room [token] (more ++ rest) (·.bare = names.first.node) :=
    reads_identifier names.first tells _
  refine first.bind fun value holds => ?_
  have loop : (Rule.loop _ [value]).Reads room more rest _ :=
    (loopReads_chain names.others saysMore stops [value]).loop
  rw [List.map_singleton, holds] at loop
  exact loop

/-- The access to a property is read. -/
theorem reads_propertyAccess (names : NameChain) (told : Says read (names.symbols pointSymbol))
    (stops : AvoidsHead [.dot] rest) :
    propertyAccess.Reads room read rest (·.bare = names.accessNode) := by
  intro nonempty before nesting enough
  rw [propertyAccess, ensures_bind]
  refine (reads_chain names told stops).ensures nonempty enough fun values holds => ?_
  refine ⟨?_, rfl⟩
  show (Node.branch .propertyAccess values).bare = _
  rw [Node.bare_branch, holds]
  rfl

/-! ## Intents, inputs and outputs -/

/-- The declaration of an intent is read. -/
theorem reads_intent (verb : Verb) (subject parameters outcome : SpecName)
    (told : Says read (SpecTree.intent verb subject parameters outcome).symbols) :
    intent.Reads room read rest
      (·.bare = (SpecTree.intent verb subject parameters outcome).node) := by
  obtain ⟨verbToken, _, rfl, tellsVerb, saysSubject⟩ := told.of_cons
  obtain ⟨subjectToken, _, rfl, tellsSubject, saysWith⟩ := saysSubject.of_cons
  obtain ⟨withToken, _, rfl, tellsWith, saysParameters⟩ := saysWith.of_cons
  obtain ⟨parametersToken, _, rfl, tellsParameters, saysReturning⟩ := saysParameters.of_cons
  obtain ⟨returningToken, _, rfl, tellsReturning, saysOutcome⟩ := saysReturning.of_cons
  obtain ⟨outcomeToken, rfl, tellsOutcome⟩ := saysOutcome.of_singleton
  have isName : verbToken.kind = .identifier := tellsVerb.kind
  have value : verbToken.value = verb.word.text := tellsVerb.value
  have isWith : withToken.kind = .withWord := tellsWith.kind
  have isReturning : returningToken.kind = .returningWord := tellsReturning.kind
  intro nonempty before nesting enough
  simp only [intent, List.cons_append, List.nil_append]
  simp [isName, value, verb.isVerb]
  refine (reads_identifier subject tellsSubject _).ensures (List.cons_ne_nil _ _) enough
    fun subjectNode subjectHolds => ?_
  simp [isWith]
  refine (reads_identifier parameters tellsParameters _).ensures (List.cons_ne_nil _ _) enough
    fun parametersNode parametersHold => ?_
  simp [isReturning]
  refine (reads_identifier outcome tellsOutcome _).ensures nonempty enough
    fun outcomeNode outcomeHolds => ?_
  simp [subjectHolds, parametersHold, outcomeHolds]
  rfl

/-- A named input is read, whatever derives its type. -/
theorem reads_inputOf (name : SpecName) {symbols : List (Symbol .specs)} {node : Node}
    (type : TypeExpr.rule.ReadsSymbols room symbols behindType (·.bare = node)) :
    input.ReadsSymbols room (.name name :: .colon :: symbols) behindType
      (·.bare = .plain .inputSpec [name.node, node]) := by
  intro read rest told ends
  obtain ⟨token, _, rfl, tells, saysColon⟩ := told.of_cons
  obtain ⟨colon, body, rfl, tellsColon, saysType⟩ := saysColon.of_cons
  have isColon : colon.kind = .colon := tellsColon.kind
  intro nonempty before nesting enough
  simp only [input, List.cons_append]
  simp only [ensures_bind]
  refine (reads_identifier name tells _).ensures (List.cons_ne_nil _ _) enough
    fun nameNode nameHolds => ?_
  simp [isColon, nonempty]
  refine (type body rest saysType ends).ensures nonempty enough fun typeNode typeHolds => ?_
  simp [nameHolds, typeHolds]
  rfl

/-- A named input is read. -/
theorem reads_input (name : SpecName) (type : TypeTree .specs)
    (told : Says read (SpecTree.input name type).symbols) (roomy : type.nest ≤ room)
    (ends : StartsIn behindType rest) :
    input.Reads room read rest (·.bare = (SpecTree.input name type).node) :=
  reads_inputOf name (type.reads roomy) read rest told ends

/-- A successful output is read. -/
theorem reads_success (name : SpecName) (type : TypeTree .specs)
    (told : Says read (SpecTree.success name type).symbols) (roomy : type.nest ≤ room)
    (ends : StartsIn behindType rest) :
    output.Reads room read rest (·.bare = (SpecTree.success name type).node) := by
  obtain ⟨mark, _, rfl, tellsMark, saysColon⟩ := told.of_cons
  obtain ⟨colon, _, rfl, tellsColon, saysName⟩ := saysColon.of_cons
  obtain ⟨token, _, rfl, tells, saysSecond⟩ := saysName.of_cons
  obtain ⟨second, body, rfl, tellsSecond, saysType⟩ := saysSecond.of_cons
  have isName : mark.kind = .identifier := tellsMark.kind
  have value : mark.value = successWord := tellsMark.value
  have isColon : colon.kind = .colon := tellsColon.kind
  have isSecond : second.kind = .colon := tellsSecond.kind
  intro nonempty before nesting enough
  simp only [output, List.cons_append]
  simp [isName, value, isColon]
  refine (reads_identifier name tells _).ensures (List.cons_ne_nil _ _) enough
    fun nameNode nameHolds => ?_
  simp [isSecond, nonempty]
  refine (type.reads roomy body rest saysType ends).ensures nonempty enough
    fun typeNode typeHolds => ?_
  simp [nameHolds, typeHolds]
  rfl

/-- A failure output is read. -/
theorem reads_failure (name : SpecName) (errors : NameChain)
    (told : Says read (SpecTree.failure name errors).symbols) (stops : AvoidsHead [.pipe] rest) :
    output.Reads room read rest (·.bare = (SpecTree.failure name errors).node) := by
  obtain ⟨mark, _, rfl, tellsMark, saysColon⟩ := told.of_cons
  obtain ⟨colon, _, rfl, tellsColon, saysName⟩ := saysColon.of_cons
  obtain ⟨token, _, rfl, tells, saysSign⟩ := saysName.of_cons
  obtain ⟨sign, body, rfl, tellsSign, saysErrors⟩ := saysSign.of_cons
  have isName : mark.kind = .identifier := tellsMark.kind
  have value : mark.value = failureWord := tellsMark.value
  have isColon : colon.kind = .colon := tellsColon.kind
  have assigns : sign.kind = .assign := tellsSign.kind
  have other : failureWord ≠ successWord := by decide
  have chain' : (chain barSymbol.kind identifier).Reads room body rest
      (fun values => values.map Node.bare = errors.nodes) := reads_chain errors saysErrors stops
  intro nonempty before nesting enough
  simp only [output, List.cons_append]
  simp [isName, value, isColon, other]
  refine (reads_identifier name tells _).ensures (List.cons_ne_nil _ _) enough
    fun nameNode nameHolds => ?_
  simp [assigns, nonempty]
  refine chain'.ensures nonempty enough fun values holds => ?_
  simp [nameHolds, holds]
  rfl

/-! ## Examples -/

/-- The failure that an example results in is read. -/
theorem reads_resultError (name : SpecName) (told : Says read (ResultTree.error name).symbols) :
    result.Reads room read rest (·.bare = (ResultTree.error name).node) := by
  obtain ⟨mark, _, rfl, tellsMark, saysColon⟩ := told.of_cons
  obtain ⟨colon, _, rfl, tellsColon, saysName⟩ := saysColon.of_cons
  obtain ⟨token, rfl, tells⟩ := saysName.of_singleton
  have isName : mark.kind = .identifier := tellsMark.kind
  have value : mark.value = errorWord := tellsMark.value
  have isColon : colon.kind = .colon := tellsColon.kind
  intro nonempty before nesting enough
  simp only [result, List.cons_append, List.nil_append]
  simp [isName, value, isColon]
  refine (reads_identifier name tells _).ensures nonempty enough fun nameNode nameHolds => ?_
  simp [nameHolds]
  rfl

/-- The value that an example results in is read. No colon may follow: behind a name it would make
the name a mark of a failure. -/
theorem reads_resultValue (tree : ValueTree)
    (told : Says read (ResultTree.value tree).symbols) (stops : AvoidsHead [.colon] rest) :
    result.Reads room read rest (·.bare = (ResultTree.value tree).node) := by
  intro nonempty before nesting enough
  obtain ⟨next, others, rfl⟩ := List.exists_cons_of_ne_nil nonempty
  have noColon : next.kind ≠ .colon := stops.kind_ne (by simp)
  cases tree with
  | boolean truth =>
    obtain ⟨token, rfl, kind, reads⟩ := exists_leaf .booleanLiteral told room (next :: others)
    rw [kind_truthSymbol] at kind
    simp only [result, List.cons_append, List.nil_append]
    simp [kind]
    exact (reads_branch reads .expectedResult) nonempty before nesting enough
  | literal tree =>
    cases tree with
    | name word =>
      obtain ⟨token, rfl, kind, reads⟩ := exists_leaf .identifier told room (next :: others)
      -- a name with a colon behind it would be that of a failure
      have isName : token.kind = .identifier := kind
      simp only [result, List.cons_append, List.nil_append]
      simp [isName, noColon]
      exact (reads_branch reads .expectedResult) nonempty before nesting enough
    | string content =>
      obtain ⟨token, rfl, kind, reads⟩ := exists_leaf .stringLiteral told room (next :: others)
      have isString : token.kind = .stringLit := kind
      simp only [result, List.cons_append, List.nil_append]
      simp [isString]
      exact (reads_branch reads .expectedResult) nonempty before nesting enough
    | number numeral =>
      obtain ⟨token, more, rfl, kind, reads⟩ := exists_number numeral told room (next :: others)
      have reading := (reads_branch reads .expectedResult) nonempty before nesting enough
      simp only [result, List.cons_append] at reading ⊢
      rcases kind with digits | sign
      · simpa [digits, ResultTree.node, ValueTree.inner, LiteralTree.node] using reading
      · simpa [sign, ResultTree.node, ValueTree.inner, LiteralTree.node] using reading

/-- The result of an example is read. -/
theorem reads_result (tree : ResultTree) (told : Says read tree.symbols)
    (stops : AvoidsHead [.colon] rest) :
    result.Reads room read rest (·.bare = tree.node) := by
  cases tree with
  | error name => exact reads_resultError name told
  | value tree => exact reads_resultValue tree told stops

/-- An example is read. -/
theorem reads_exampleCall (made : CallTree) (outcome : ResultTree)
    (told : Says read (SpecTree.exampleCall made outcome).symbols)
    (stops : AvoidsHead [.colon] rest) :
    exampleCall.Reads room read rest (·.bare = (SpecTree.exampleCall made outcome).node) := by
  obtain ⟨callRead, _, rfl, saysCall, saysArrow⟩ := told.of_append
  obtain ⟨arrow, body, rfl, tellsArrow, saysResult⟩ := saysArrow.of_cons
  have isArrow : arrow.kind = .resultArrow := tellsArrow.kind
  intro nonempty before nesting enough
  rw [exampleCall, ensures_bind, List.append_assoc]
  refine (reads_call made saysCall).ensures (by simp) enough fun callNode callHolds => ?_
  simp [isArrow, nonempty]
  refine (reads_result outcome saysResult stops).ensures nonempty enough
    fun resultNode resultHolds => ?_
  simp [callHolds, resultHolds]
  rfl

/-! ## Constraints -/

/-- A range between brackets is read. -/
theorem reads_bracketRange (low high : ValueTree)
    (told : Says read (RangeTree.brackets low high).symbols) :
    range.Reads room read rest (·.bare = (RangeTree.brackets low high).node) := by
  obtain ⟨opening, _, rfl, tellsOpening, saysInner⟩ := told.of_cons
  obtain ⟨lowRead, _, rfl, saysLow, saysComma⟩ := saysInner.of_append
  obtain ⟨comma, highRead, closing, rfl, tellsComma, saysHigh, tellsClosing⟩ :=
    saysComma.of_enclosed
  have opens : opening.kind = .leftBracket := tellsOpening.kind
  have isComma : comma.kind = .comma := tellsComma.kind
  have closes : closing.kind = .rightBracket := tellsClosing.kind
  intro nonempty before nesting enough
  simp only [range, List.cons_append, List.append_assoc]
  simp [opens]
  refine (reads_value low saysLow).ensures (List.cons_ne_nil _ _) enough
    fun lowNode lowHolds => ?_
  simp [isComma]
  refine (reads_value high saysHigh).ensures (List.cons_ne_nil _ _) enough
    fun highNode highHolds => ?_
  simp [closes, nonempty, lowHolds, highHolds]
  rfl

/-- A range from one number to another is read. -/
theorem reads_dotRange (low high : SignedNumeral)
    (told : Says read (RangeTree.dots low high).symbols) :
    range.Reads room read rest (·.bare = (RangeTree.dots low high).node) := by
  obtain ⟨lowRead, _, rfl, saysLow, saysDots⟩ := told.of_append
  obtain ⟨dots, highRead, rfl, tellsDots, saysHigh⟩ := saysDots.of_cons
  have isDots : dots.kind = .dotDot := tellsDots.kind
  obtain ⟨token, others, rfl, kind, reads⟩ :=
    exists_number low saysLow room (dots :: highRead ++ rest)
  obtain ⟨highToken, highOthers, rfl, _, readsHigh⟩ := exists_number high saysHigh room rest
  -- The low end starts with digits or with a sign, so the rule takes it for a number.
  have noBracket : token.kind ≠ .leftBracket := by
    rcases kind with digits | sign
    · rw [digits]
      decide
    · rw [sign]
      decide
  have isNumber : ¬(decide (token.kind ≠ .numberLit) && decide (token.kind ≠ .minus)) = true := by
    rcases kind with digits | sign
    · simp [digits]
    · simp [sign]
  unfold range
  refine reads_current ?_
  rw [if_neg noBracket, if_neg isNumber]
  intro nonempty before nesting enough
  show Rule.Ensures _ (.facing before ((token :: others) ++ (dots :: _) ++ rest) nesting) _ _
  rw [ensures_bind, List.append_assoc]
  refine reads.ensures (List.cons_ne_nil _ _) enough fun lowNode lowHolds => ?_
  simp [isDots]
  refine readsHigh.ensures nonempty enough fun highNode highHolds => ?_
  simp [lowHolds, highHolds]
  rfl

/-- A range is read. -/
theorem reads_range (tree : RangeTree) (told : Says read tree.symbols) :
    range.Reads room read rest (·.bare = tree.node) := by
  cases tree with
  | brackets low high => exact reads_bracketRange low high told
  | dots low high => exact reads_dotRange low high told

/-- What stands behind the property of a constraint does not go on with its names. -/
theorem avoidsDot_cons {others : List Token} (kind : token.kind ≠ .dot) :
    AvoidsHead [.dot] (token :: others) :=
  (avoidsHead_cons _ _ _).mpr fun member => kind (List.mem_singleton.mp member)

/-- A comparison is read. -/
theorem reads_comparison (target : NameChain) (sign : ComparisonSign) (bound : ValueTree)
    (told : Says read (SpecTree.comparison target sign bound).symbols) :
    constraint.Reads room read rest (·.bare = (SpecTree.comparison target sign bound).node) := by
  obtain ⟨access, _, rfl, saysTarget, saysSign⟩ := told.of_append
  obtain ⟨token, body, rfl, tells, saysValue⟩ := saysSign.of_cons
  have compares : isComparison token.kind = true := by
    rw [tells.kind]
    exact sign.isComparison
  have noDot : token.kind ≠ .dot := by
    intro same
    rw [same] at compares
    exact Bool.noConfusion compares
  intro nonempty before nesting enough
  rw [constraint, ensures_bind, List.append_assoc]
  refine (reads_propertyAccess target saysTarget (avoidsDot_cons noDot)).ensures
    (List.cons_ne_nil _ _) enough fun targetNode targetHolds => ?_
  simp [compares, Rule.leaf, nonempty]
  refine (reads_value bound saysValue).ensures nonempty enough fun node holds => ?_
  simp [targetHolds, holds, tells.value]
  rfl

/-- A range constraint is read. -/
theorem reads_within (target : NameChain) (bounds : RangeTree)
    (told : Says read (SpecTree.within target bounds).symbols) :
    constraint.Reads room read rest (·.bare = (SpecTree.within target bounds).node) := by
  obtain ⟨access, _, rfl, saysTarget, saysWord⟩ := told.of_append
  obtain ⟨token, body, rfl, tells, saysRange⟩ := saysWord.of_cons
  have kind : token.kind = .inWord := tells.kind
  have noDot : token.kind ≠ .dot := by
    rw [kind]
    exact TokenKind.noConfusion
  intro nonempty before nesting enough
  rw [constraint, ensures_bind, List.append_assoc]
  refine (reads_propertyAccess target saysTarget (avoidsDot_cons noDot)).ensures
    (List.cons_ne_nil _ _) enough fun targetNode targetHolds => ?_
  simp [kind, isComparison, nonempty]
  refine (reads_range bounds saysRange).ensures nonempty enough fun node holds => ?_
  simp [targetHolds, holds]
  rfl

/-- A pattern constraint is read. -/
theorem reads_format (target : NameChain) (pattern : SpecPattern)
    (told : Says read (SpecTree.format target pattern).symbols) :
    constraint.Reads room read rest (·.bare = (SpecTree.format target pattern).node) := by
  obtain ⟨access, _, rfl, saysTarget, saysWord⟩ := told.of_append
  obtain ⟨token, _, rfl, tells, saysPattern⟩ := saysWord.of_cons
  obtain ⟨literal, rfl, tellsLiteral⟩ := saysPattern.of_singleton
  have kind : token.kind = .matchesWord := tells.kind
  have isPattern : literal.kind = .patternLit := tellsLiteral.kind
  have value : literal.value = pattern.content.text := tellsLiteral.value
  have noDot : token.kind ≠ .dot := by
    rw [kind]
    exact TokenKind.noConfusion
  intro nonempty before nesting enough
  rw [constraint, ensures_bind, List.append_assoc]
  refine (reads_propertyAccess target saysTarget (avoidsDot_cons noDot)).ensures
    (List.cons_ne_nil _ _) enough fun targetNode targetHolds => ?_
  simp [kind, isComparison, isPattern, nonempty, targetHolds, value]
  rfl

/-! ## Invariants -/

/-- Behind the first name of a chain stands a mark, or what stands behind the chain. -/
theorem exists_behindName (names : NameChain) (told : Says read (names.symbols pointSymbol))
    (next : Token) (others : List Token) :
    ∃ token second more, read ++ next :: others = token :: second :: more ∧
      token.kind = .identifier ∧ (second = next ∨ second.kind = .dot) := by
  obtain ⟨token, behind, rfl, tells, saysBehind⟩ := told.of_cons
  cases behind with
  | nil => exact ⟨token, next, others, rfl, tells.kind, .inl rfl⟩
  | cons second more =>
    refine ⟨token, second, more ++ next :: others, rfl, tells.kind, .inr ?_⟩
    cases further : names.others with
    | nil =>
      rw [further] at saysBehind
      cases saysBehind
    | cons name later =>
      rw [further, List.flatMap_cons] at saysBehind
      obtain ⟨_, _, same, tellsMark, _⟩ := saysBehind.of_cons
      rw [(List.cons.inj same).1]
      exact tellsMark.kind

/-- A side of an invariant is read. -/
theorem reads_side (tree : SideTree) (told : Says read tree.symbols)
    (stops : AvoidsHead [.dot, .leftParen] rest) :
    side.Reads room read rest (·.bare = tree.node) := by
  intro nonempty before nesting enough
  cases tree with
  | boolean truth =>
    obtain ⟨token, rfl, kind, reads⟩ := exists_leaf .booleanLiteral told room rest
    rw [kind_truthSymbol] at kind
    simp only [side, List.cons_append, List.nil_append, ensures_bind, ensures_current,
      current_facing, kind]
    exact reads nonempty before nesting enough
  | call tree =>
    have reading := reads_call tree told nonempty before nesting enough
    obtain ⟨token, _, rfl, tells, saysOpening⟩ := told.of_cons
    obtain ⟨opening, more, rfl, tellsOpening, _⟩ := saysOpening.of_cons
    have isName : token.kind = .identifier := tells.kind
    have opens : opening.kind = .leftParen := tellsOpening.kind
    simp only [List.cons_append] at reading ⊢
    simp only [side, ensures_bind, ensures_current, current_facing, isName, ensures_peek,
      peek_facing, opens, ensures_ite, if_true]
    exact reading
  | access names =>
    obtain ⟨next, others, rfl⟩ := List.exists_cons_of_ne_nil nonempty
    have noParen : next.kind ≠ .leftParen := stops.kind_ne (by simp)
    have reading := reads_propertyAccess names told (stops.mono (by simp)) nonempty before nesting
      enough
    obtain ⟨token, second, more, faced, isName, behind⟩ :=
      exists_behindName names told next others
    have other : second.kind ≠ .leftParen := by
      rcases behind with rfl | point
      · exact noParen
      · rw [point]
        exact TokenKind.noConfusion
    rw [faced] at reading ⊢
    simp only [side, ensures_bind, ensures_current, current_facing, isName, ensures_peek,
      peek_facing, other, ensures_ite, if_false]
    exact reading

/-- An invariant is read. -/
theorem reads_invariant (left right : SideTree)
    (told : Says read (SpecTree.invariant left right).symbols)
    (stops : AvoidsHead [.dot, .leftParen] rest) :
    invariant.Reads room read rest (·.bare = (SpecTree.invariant left right).node) := by
  obtain ⟨leftRead, _, rfl, saysLeft, saysIff⟩ := told.of_append
  obtain ⟨sign, body, rfl, tells, saysRight⟩ := saysIff.of_cons
  have kind : sign.kind = .iff := tells.kind
  have apart : AvoidsHead [.dot, .leftParen] (sign :: body ++ rest) := by
    rw [List.cons_append, avoidsHead_cons, kind]
    decide
  intro nonempty before nesting enough
  rw [invariant, ensures_bind, List.append_assoc]
  refine (reads_side left saysLeft apart).ensures (List.cons_ne_nil _ _) enough
    fun leftNode leftHolds => ?_
  simp [kind, nonempty]
  refine (reads_side right saysRight stops).ensures nonempty enough fun rightNode rightHolds => ?_
  simp [leftHolds, rightHolds]
  rfl

end SpecLine

/-! ## Lines -/

namespace SpecTree

variable {part : SpecSection}

/-- The kinds of tokens that stand behind a line. -/
def behindLine : List TokenKind := [.newline, .endOfInput]

/-- Every line is read by the rule of its section. -/
theorem reads (tree : SpecTree part) :
    part.line.ReadsSymbols tree.nest tree.symbols behindLine (·.bare = tree.node) := by
  intro read rest told ends
  cases tree with
  | intent verb subject parameters result =>
    exact SpecLine.reads_intent verb subject parameters result told
  | input name type =>
    exact SpecLine.reads_input name type told (Nat.le_refl _) (ends.mono (by decide))
  | success name type =>
    exact SpecLine.reads_success name type told (Nat.le_refl _) (ends.mono (by decide))
  | failure name errors =>
    exact SpecLine.reads_failure name errors told (ends.avoidsHead (by decide))
  | exampleCall call result =>
    exact SpecLine.reads_exampleCall call result told (ends.avoidsHead (by decide))
  | comparison target sign value => exact SpecLine.reads_comparison target sign value told
  | within target range => exact SpecLine.reads_within target range told
  | format target pattern => exact SpecLine.reads_format target pattern told
  | invariant left right =>
    exact SpecLine.reads_invariant left right told (ends.avoidsHead (by decide))

end SpecTree

end DocGrammar
