import DocGrammar.Proofs.Documents.Fenced
import DocGrammar.Proofs.Pseudo.Statements
import DocGrammar.Proofs.Tokens.Begins

/-! # Functions between fences

A document that is nothing but a block of pseudo code is the block, and the code of the block is
read as it stands between the fences. A function without statements has the parameters and the
return type that are read in its head.

* **`pseudo_yields`** — a block of pseudo code is read.
* **`function_yields`** — a block that holds a function without statements is read. -/

namespace DocGrammar

open Rule RuleState Statement

variable {file : String} {limit : Int} {room : Nat}

/-! ## Blocks of pseudo code -/

/-- The row of the fence that opens a block of pseudo code. -/
def pseudoFence : List Char := "```pseudo".toList

/-- The row of the fence that closes it. -/
def bareFence : List Char := "```".toList

/-- The document that is nothing but a block of pseudo code. -/
def pseudoText (code : String) : String := "```pseudo\n" ++ code ++ "\n```"

/-- The tree of a document that is nothing but a block of pseudo code. -/
def pseudoDocument (nodes : List Node) : Node :=
  .plain .sourceFile [.plain .pseudoCodeBlock nodes]

/-- A last row stands behind the others and a line end. -/
theorem intercalate_concat {rows : List (List Char)} (nonempty : rows ≠ []) (last : List Char) :
    ['\n'].intercalate (rows ++ [last]) = ['\n'].intercalate rows ++ '\n' :: last := by
  induction rows with
  | nil => exact absurd rfl nonempty
  | cons row rows ih =>
    cases rows with
    | nil => simp [List.intercalate]
    | cons next rows =>
      have behind := ih (List.cons_ne_nil _ _)
      simp only [List.intercalate, List.cons_append, List.intersperse_cons_cons, List.flatten_cons]
        at behind ⊢
      rw [behind]
      simp

/-- The rows of a block of pseudo code make up its document. -/
theorem ofList_pseudoRows {code : String} {rows : List (List Char)} (nonempty : rows ≠ [])
    (whole : code.toList = ['\n'].intercalate rows) :
    String.ofList (['\n'].intercalate (pseudoFence :: (rows ++ [bareFence]))) =
      pseudoText code := by
  have first : "```pseudo\n".toList = pseudoFence ++ ['\n'] := by decide
  have last : "\n```".toList = '\n' :: bareFence := by decide
  have joined : ['\n'].intercalate (pseudoFence :: (rows ++ [bareFence])) =
      pseudoFence ++ ['\n'] ++ ['\n'].intercalate (rows ++ [bareFence]) := by
    obtain ⟨row, others, rfl⟩ := List.exists_cons_of_ne_nil nonempty
    simp [List.intercalate]
  rw [joined, intercalate_concat nonempty, ← whole, ← first, ← last, ← String.toList_append,
    ← String.toList_append, String.ofList_toList, pseudoText, String.append_assoc]

/-- A fenced block of pseudo code is read if its tokens are. -/
theorem Pseudo.fencedNode_ok {block : FencedBlock} {state : WalkState Unit} {code : List Token}
    {nodes : List Node} (language : block.language = statementLanguage)
    (lexed : codeTokens .pseudo state.session.file ⟨block.firstLine, 1⟩ block.text = .ok code)
    (runs : WalkM.runRule Statement.all code state = .ok nodes state) :
    fencedNode block state =
      .ok (.spanning .pseudoCodeBlock nodes (some block.span)) state := by
  unfold fencedNode
  rw [if_pos language]
  show EStateM.bind (WalkM.ofExcept (codeTokens .pseudo state.session.file _ _)) _ state = _
  unfold EStateM.bind
  rw [lexed]
  show EStateM.bind (WalkM.runRule Statement.all code) _ state = _
  unfold EStateM.bind
  rw [runs]
  rfl

/-- **A block of pseudo code is read** if its code becomes tokens that the rule of statements
reads. -/
theorem pseudo_yields (positive : 1 ≤ limit) (shallow : (room : Int) ≤ limit) {code : String}
    {rows : List (List Char)} (nonempty : rows ≠ []) (inner : ∀ row ∈ rows, IsCodeRow 3 row)
    (whole : code.toList = ['\n'].intercalate rows) {nodes : List Node}
    (reads : ∀ start, ∃ tokens last,
      codeTokens .pseudo file start code = .ok (tokens ++ [last]) ∧
      (∀ token ∈ tokens ++ [last], token.kind ≠ .comment) ∧
      Statement.all.Reads room tokens [last] (fun values => values.map Node.bare = nodes)) :
    (parseDocument .builtIn file limit (some Grammar.pseudoKernel.name) (pseudoText code)).Yields
      (pseudoDocument nodes) := by
  have isOpener : IsRow pseudoFence := ⟨by decide, "```pseud".toList, 'o', by decide, by decide⟩
  have isCloser : IsRow bareFence := ⟨by decide, "``".toList, '\x60', by decide, by decide⟩
  have shaped : LineShape.ofLine true pseudoFence = .fence ⟨0, 3, "pseudo".toList⟩ := by decide
  obtain ⟨block, parts, info, text⟩ :=
    exists_readsSection_fenced file isOpener isCloser shaped inner (by decide)
  rw [ofList_pseudoRows nonempty whole] at parts
  rw [← whole, String.ofList_toList] at text
  obtain ⟨tokens, last, lexed, uncommented, all⟩ := reads ⟨block.firstLine, 1⟩
  have enough : room ≤ (Grammar.pseudoKernel.begun file limit ()).session.nesting.room := by
    show room ≤ limit.toNat - 0
    omega
  obtain ⟨values, holds, runs⟩ := WalkM.exists_runRule all uncommented _ enough
  -- the info text of the fence selects the rule of statements
  have language : block.language = Pseudo.statementLanguage := by
    unfold FencedBlock.language
    rw [info]
    decide
  rw [← text] at lexed
  have node := Pseudo.fencedNode_ok language lexed runs
  have sections : sectionNodes Pseudo.sectionRule ⟨none, [.fenced block], none⟩
      (Grammar.pseudoKernel.begun file limit ()) =
      .ok [.spanning .pseudoCodeBlock values (some block.span)]
        (Grammar.pseudoKernel.begun file limit ()) := by
    show (do return [] ++ (← [Item.fenced block].mapM Pseudo.itemNode) : Pseudo.PseudoM _) _ = _
    rw [List.mapM_cons]
    show EStateM.bind (EStateM.bind (Pseudo.fencedNode block) _) _ _ = _
    unfold EStateM.bind
    rw [node]
    rfl
  have yields := walksBy_pseudoKernel.parse_yields positive parts sections rfl
  rw [List.map_singleton, Node.bare_spanning, holds] at yields
  exact yields

/-! ## Functions without statements -/

/-- The name of the function. -/
def functionName : Name := ⟨"f", by decide +kernel, by decide +kernel⟩

/-- Pseudo code does not reserve the letter x. -/
theorem kindOf_x : KeywordTable.pseudo.kindOf "x" = .identifier := by decide

/-- The name of its parameter. -/
def parameterName : Name := ⟨"x", isWord_x, kindOf_x⟩

/-- The tree of a function without statements, given the nodes in its head. -/
def functionNode (head : List Node) : Node :=
  .plain .functionDefinition ((nameNode functionName).withField "name" ::
    (head ++ [(Node.plain .block []).withField "body"]))

section Reading

variable {read given result marks : List Token} {start token opening brace closing last : Token}
  {node : Node} {givenNodes resultNodes : List Node}

/-- A block without statements is read. -/
theorem reads_emptyBlock (positive : 1 ≤ room) (opens : brace.kind = .leftBrace)
    (separates : ∀ mark ∈ marks, mark.kind ∈ separators) (closes : closing.kind = .rightBrace)
    (rest : List Token) :
    (compoundRule .block).Reads room (brace :: (marks ++ [closing])) rest
      (·.bare = .plain .block []) := by
  refine (covers_compoundRule room).block _ _ _ fun deeper enough => ?_
  obtain ⟨levels, rfl⟩ : ∃ inner, deeper = inner + 1 := ⟨deeper - 1, by omega⟩
  have starts : StartsIn (closing.kind :: statementKinds) ([] ++ closing :: rest) :=
    startsIn_cons rfl List.mem_cons_self
  have block : (compound (levels + 1) .block).Reads (0 + 1) (brace :: (marks ++ ([] ++ [closing])))
      rest (·.bare = .plain .block []) :=
    reads_block opens closes separates starts (loopReads_nothing rest [])
  exact block.mono positive fun _ holds => holds

/-- A text of a single statement is read. -/
theorem reads_all_single (starts : StartsIn statementKinds read)
    (reads : (single (compoundRule .block) (compoundRule .conditional)).Reads room read [last]
      (·.bare = node)) (ends : last.kind = .endOfInput) :
    Statement.all.Reads room read [last] (fun values => values.map Node.bare = [node]) := by
  have list := reads_list (fun mark member => absurd member List.not_mem_nil)
    ((starts.append _).mono (List.subset_cons_self _ _))
    (loopReads_single (.inr ends) starts reads []) (by rw [ends]; decide)
  rw [ends] at list
  exact list

/-- **A function without statements is read** if its parameters and its return type are. -/
theorem reads_emptyFunction (positive : 1 ≤ room) (defines : start.kind = .fnWord)
    (tells : token.Tells (Symbol.name functionName)) (opens : opening.kind = .leftParen)
    (readsGiven : parameters.Reads room given
      (result ++ (brace :: (marks ++ [closing]) ++ [last]))
      (fun values => values.map Node.bare = givenNodes))
    (readsResult : returnType.Reads room result (brace :: (marks ++ [closing]) ++ [last])
      (fun values => values.map Node.bare = resultNodes))
    (braces : brace.kind = .leftBrace) (separates : ∀ mark ∈ marks, mark.kind ∈ separators)
    (closes : closing.kind = .rightBrace) (ends : last.kind = .endOfInput) :
    Statement.all.Reads room
      (start :: token :: opening :: (given ++ (result ++ brace :: (marks ++ [closing])))) [last]
      (fun values => values.map Node.bare = [functionNode (givenNodes ++ resultNodes)]) := by
  have block := reads_emptyBlock positive braces separates closes [last]
  have function := reads_function functionName start tells opens readsGiven readsResult block
  exact reads_all_single (startsIn_cons defines (by decide))
    (reads_of_kind (startsIn_cons defines List.mem_cons_self)
      (fun state kind => by rw [single_eq, kind]) function) ends

end Reading

/-! ## Code of functions without statements -/

/-- Code that ends with a block without statements becomes the tokens of what stands before the
block and those of the block. -/
theorem exists_codeTokens_block {code : String} {symbols : List (Symbol .pseudo)}
    {rest : List Char} (marks : List Mark)
    (begins : Begins code.toList (symbols ++ [.leftBrace]) rest)
    (closes : layout (fun _ => ⟨[], rfl⟩) (markSymbols marks ++ [(.rightBrace : Symbol .pseudo)]) =
      rest) (start : Position) :
    ∃ (head : List Token) (brace : Token) (between : List Token) (closing last : Token),
      codeTokens .pseudo file start code =
        .ok (head ++ brace :: (between ++ [closing]) ++ [last]) ∧
      Says head symbols ∧ brace.kind = .leftBrace ∧ (∀ mark ∈ between, mark.kind ∈ separators) ∧
      closing.kind = .rightBrace ∧ last.kind = .endOfInput := by
  obtain ⟨front, later, told, lexed⟩ := begins.exists_tokens file (.start start)
  obtain ⟨head, brace, rfl, saysHead, tellsBrace⟩ := told.of_concat
  -- what is left of the block is read whatever brackets are open, with or without its line ends
  have fits : later.Fits (markSymbols marks ++ [(.rightBrace : Symbol .pseudo)]) := by
    refine later.fits_of_kind (List.forall_mem_append.mpr ⟨fun symbol member => ?_, ?_⟩)
    · obtain ⟨mark, _, rfl⟩ := List.mem_map.mp member
      cases mark <;> decide
    · exact List.forall_mem_singleton.mpr (by decide)
  obtain ⟨tokens, last, behind, saysTokens, ends⟩ : ∃ tokens last,
      codeTokensFrom .pseudo file later (layout _ _) = .ok (tokens ++ [last]) ∧ _ :=
    codeTokensFrom_layout _ (fun _ => ⟨[], rfl⟩) (.refl later) fits
  rw [CodeState.emitted_append] at saysTokens
  obtain ⟨between, _, rfl, saysMarks, saysLast⟩ := saysTokens.of_append
  rw [CodeState.emitted_cons _ rfl] at saysLast
  obtain ⟨closing, rfl, tellsClosing⟩ := saysLast.of_singleton
  refine ⟨head, brace, between, closing, last, ?_, saysHead, tellsBrace.kind,
    kind_of_marks _ _ saysMarks, tellsClosing.kind, ends⟩
  rw [codeTokens, lexed, ← closes, behind]
  simp [Except.map]

/-- Code that opens a function becomes the tokens that it starts with. -/
theorem begins_function (rest : List Char) :
    Begins ('f' :: 'n' :: ' ' :: 'f' :: '(' :: rest) [fnSymbol, .name functionName, .leftParen]
      rest := by
  have outside : isWordChar '(' = false := isWordChar_of_ascii (by decide)
  have opens : (Symbol.leftParen : Symbol .pseudo).stops rest = true := by
    cases rest <;> simp [Symbol.stops, Symbol.markStops, markChars, pairOperator?]
  exact .cons fnSymbol rfl (by decide) (Symbol.stops_space _ _) (.space rfl
    (.cons (.name functionName) rfl (by decide) (Symbol.stops_name _ outside _)
      (.cons .leftParen rfl (by decide) opens (.nil rest))))

/-- **A function without statements is read between fences** if the rules of parameters and of
return types read what its head says. -/
theorem function_yields (positive : 1 ≤ limit) (shallow : (room : Int) ≤ limit)
    (roomy : 1 ≤ room) {code : String} {rows : List (List Char)} (nonempty : rows ≠ [])
    (inner : ∀ row ∈ rows, IsCodeRow 3 row) (whole : code.toList = ['\n'].intercalate rows)
    {behind rest : List Char} {symbols : List (Symbol .pseudo)} (marks : List Mark)
    (opens : code.toList = 'f' :: 'n' :: ' ' :: 'f' :: '(' :: behind)
    (begins : Begins behind (symbols ++ [.leftBrace]) rest)
    (closes : layout (fun _ => ⟨[], rfl⟩) (markSymbols marks ++ [(.rightBrace : Symbol .pseudo)]) =
      rest) {givenNodes resultNodes : List Node}
    (reads : ∀ tokens body, Says tokens symbols → StartsIn [.leftBrace] body →
      ∃ given result, tokens = given ++ result ∧
        parameters.Reads room given (result ++ body)
          (fun values => values.map Node.bare = givenNodes) ∧
        returnType.Reads room result body (fun values => values.map Node.bare = resultNodes)) :
    (parseDocument .builtIn file limit (some Grammar.pseudoKernel.name) (pseudoText code)).Yields
      (pseudoDocument [functionNode (givenNodes ++ resultNodes)]) := by
  have spelled := (begins_function behind).trans begins
  rw [← opens, ← List.append_assoc] at spelled
  refine pseudo_yields positive shallow nonempty inner whole fun start => ?_
  obtain ⟨head, brace, between, closing, last, lexed, told, braces, separates, closes, ends⟩ :=
    exists_codeTokens_block marks spelled closes start
  obtain ⟨word, _, rfl, tellsWord, saysName⟩ := told.of_cons
  obtain ⟨token, _, rfl, tells, saysParen⟩ := saysName.of_cons
  obtain ⟨opening, tokens, rfl, tellsOpening, saysTokens⟩ := saysParen.of_cons
  obtain ⟨given, result, rfl, readsGiven, readsResult⟩ :=
    reads tokens (brace :: (between ++ [closing]) ++ [last]) saysTokens
      (startsIn_cons braces List.mem_cons_self)
  have read := reads_emptyFunction roomy tellsWord.kind tells tellsOpening.kind readsGiven
    readsResult braces separates closes ends
  refine ⟨_, last, lexed, ?_, by simpa using read⟩
  -- separators are no comments, and neither are the symbols of the head
  have noComment : ∀ mark ∈ between, mark.kind ≠ .comment := fun mark member isComment => by
    have separator := separates mark member
    rw [isComment] at separator
    exact absurd separator (by decide)
  refine List.forall_mem_append.mpr ⟨List.forall_mem_append.mpr
    ⟨told.kind_ne (by decide) rfl (by decide), List.forall_mem_cons.mpr
      ⟨by rw [braces]; decide, List.forall_mem_append.mpr ⟨noComment, ?_⟩⟩⟩, ?_⟩
  · exact List.forall_mem_singleton.mpr (by rw [closes]; decide)
  · exact List.forall_mem_singleton.mpr (by rw [ends]; decide)

section Types

variable {text : String} {symbols : List (Symbol .pseudo)} {type : Node} {nest : Nat}

/-- The code of a function with a return type. -/
def returningCode (text : String) : String := "fn f() -> " ++ text ++ " \x7b\n\x7d"

/-- The code of a function with a parameter. -/
def parameterCode (text : String) : String := "fn f(x: " ++ text ++ ") \x7b\x7d"

/-- **The return type of a function** is any type that is derived, if the limit admits its
nesting. -/
theorem returnType_yields (positive : 1 ≤ limit) (begins : Begins text.toList symbols [])
    (derives : DerivesType symbols type nest) (shallow : (nest : Int) ≤ limit) :
    (parseDocument .builtIn file limit (some Grammar.pseudoKernel.name)
      (pseudoText (returningCode text))).Yields
      (pseudoDocument [functionNode [type.withField "return_type"]]) := by
  let arrow : Symbol .pseudo := .mark .arrow
  let before : List Char := "fn f() -> ".toList
  have whole : (returningCode text).toList =
      before ++ text.toList ++ [' ', '\x7b', '\n', '\x7d'] := by
    rw [returningCode, String.toList_append, String.toList_append]
    rfl
  have clean : isCleanText (before ++ text.toList ++ [' ', '\x7b']) = true := by
    rw [isCleanText_append, isCleanText_append, begins.isCleanText rfl]
    decide
  have isRow : IsCodeRow 3 (before ++ text.toList ++ [' ', '\x7b']) :=
    isCodeRow_of_last clean (List.append_assoc _ [' '] ['\x7b']).symm (by decide) (by decide) 3
  have isLast : IsCodeRow 3 ['\x7d'] := ⟨by decide, by decide, by decide⟩
  -- between the parentheses nothing is said, and the type stands behind the arrow
  have behind : Begins
      (')' :: ' ' :: '-' :: '>' :: ' ' :: (text.toList ++ [' ', '\x7b', '\n', '\x7d']))
      (.rightParen :: arrow :: symbols ++ [.leftBrace]) ['\n', '\x7d'] := by
    refine .cons .rightParen rfl (by decide) (Symbol.stops_space _ _) (.space rfl
      (.cons arrow rfl (by decide) (Symbol.stops_space _ _) (.space rfl ?_)))
    exact (begins.append ((isApart_cons _ _).mpr (.inl rfl))).trans
      (.space rfl (.cons .leftBrace rfl (by decide) rfl (.nil _)))
  show ParseResult.Yields _ (pseudoDocument [functionNode ([] ++ [type.withField "return_type"])])
  refine function_yields positive (by omega : ((max nest 1 : Nat) : Int) ≤ limit)
    (Nat.le_max_right _ _) (List.cons_ne_nil _ [['\x7d']])
    (List.forall_mem_cons.mpr ⟨isRow, List.forall_mem_singleton.mpr isLast⟩)
    (whole.trans (by simp [List.intercalate])) [.newline] whole behind (by decide) ?_
  intro tokens body told starts
  obtain ⟨closing, _, rfl, tellsClosing, saysArrow⟩ := told.of_cons
  obtain ⟨mark, read, rfl, tellsMark, saysType⟩ := saysArrow.of_cons
  exact ⟨[closing], mark :: read, rfl,
    reads_parameterTrees [] (Nat.zero_le _) .nil tellsClosing.kind _,
    reads_returnType tellsMark.kind
      (derives.reads (Nat.le_max_left _ _) read body saysType (starts.mono (by decide)))⟩

/-- **The type of a parameter** is any type that is derived, if the limit admits its nesting. -/
theorem parameterType_yields (positive : 1 ≤ limit) (begins : Begins text.toList symbols [])
    (derives : DerivesType symbols type nest) (shallow : (nest : Int) ≤ limit) :
    (parseDocument .builtIn file limit (some Grammar.pseudoKernel.name)
      (pseudoText (parameterCode text))).Yields
      (pseudoDocument [functionNode [(Node.plain .parameterList
        [.plain .parameter [nameNode parameterName, type]]).withField "parameters"]]) := by
  let before : List Char := "fn f(x: ".toList
  have whole : (parameterCode text).toList =
      before ++ text.toList ++ [')', ' ', '\x7b', '\x7d'] := by
    rw [parameterCode, String.toList_append, String.toList_append]
    rfl
  have clean : isCleanText (before ++ text.toList ++ [')', ' ', '\x7b', '\x7d']) = true := by
    rw [isCleanText_append, isCleanText_append, begins.isCleanText rfl]
    decide
  have isRow : IsCodeRow 3 (before ++ text.toList ++ [')', ' ', '\x7b', '\x7d']) :=
    isCodeRow_of_last clean (List.append_assoc _ [')', ' ', '\x7b'] ['\x7d']).symm (by decide)
      (by decide) 3
  -- the type stands between the colon and the parenthesis
  have typed : Begins (text.toList ++ [')', ' ', '\x7b', '\x7d'])
      (symbols ++ [.rightParen] ++ [.leftBrace]) ['\x7d'] := by
    rw [List.append_assoc]
    exact (begins.append ((isApart_cons _ _).mpr (.inr rfl))).trans
      (.cons .rightParen rfl (by decide) (Symbol.stops_space _ _)
        (.space rfl (.cons .leftBrace rfl (by decide) rfl (.nil _))))
  have outside : isWordChar ':' = false := isWordChar_of_ascii (by decide)
  have behind : Begins ('x' :: ':' :: ' ' :: (text.toList ++ [')', ' ', '\x7b', '\x7d']))
      (.name parameterName :: .colon :: (symbols ++ [.rightParen]) ++ [.leftBrace]) ['\x7d'] :=
    .cons (.name parameterName) rfl (by decide) (Symbol.stops_name _ outside _)
      (.cons .colon rfl (by decide) (Symbol.stops_space _ _) (.space rfl typed))
  show ParseResult.Yields _ (pseudoDocument [functionNode ([_] ++ [])])
  refine function_yields positive (by omega : ((max nest 1 : Nat) : Int) ≤ limit)
    (Nat.le_max_right _ _) (List.cons_ne_nil _ []) (List.forall_mem_singleton.mpr isRow)
    (whole.trans (by simp [List.intercalate])) [] whole behind (by decide) ?_
  intro tokens body told starts
  rw [← List.cons_append, ← List.cons_append] at told
  obtain ⟨read, closing, rfl, saysParameter, tellsClosing⟩ := told.of_concat
  have list : Says read (separated .comma ([()].map fun _ =>
      .name parameterName :: .colon :: symbols)) := by
    simpa [separated] using saysParameter
  exact ⟨read ++ [closing], [], (List.append_nil _).symm,
    reads_parameters [()]
      (fun _ _ => reads_parameter parameterName (derives.reads (Nat.le_max_left _ _)))
      (fun _ _ => ⟨_, _, rfl, by simp [Symbol.name, Symbol.kind]⟩) list tellsClosing.kind _,
    reads_returnType_none starts⟩

end Types

end DocGrammar
