import DocGrammar.Parse

/-! # The stages of a parse

A parse checks its limit, cuts the text into tokens, makes a document of these, selects a grammar
and only then reads sections. Each stage may end it. What a parse does at each stage is said here
once, so that statements about whole parses are about the stage that decides them.

* **`readDocument_cases`** — a text becomes no tokens, or its document is that of its tokens.
* **`selectGrammar_cases`** — no name is given, no grammar has it, or it selects a grammar.
* **`parseDocument_cases`** — a parse is refused for its limit or its text, or it reads sections.
* **`parseType_of_tokens`** — a type is parsed by its rule. -/

namespace DocGrammar

variable {file text : String} {limit : Int} {tokens : List Token} {diagnostic : Diagnostic}
  {source : Document}

/-! ## Limits -/

/-- A positive limit admits some nesting. -/
theorem Session.start_of_positive (file : String) (positive : 1 ≤ limit) :
    Session.start file limit = .ok ⟨file, ⟨limit.toNat, 0⟩, [], []⟩ :=
  if_neg (by omega)

/-- Any other limit is refused. -/
theorem Session.start_of_small (file : String) (small : limit < 1) :
    Session.start file limit = .error (.invalidLimit limit) :=
  if_pos small

/-! ## Documents -/

/-- A text is read from its tokens. -/
theorem readDocument_of_documentTokens (lexed : documentTokens file text = .ok tokens) :
    readDocument file text = Document.ofTokens file tokens := by
  rw [readDocument, lexed]
  rfl

/-- A text that becomes no tokens is not read. -/
theorem readDocument_of_lexical (fails : documentTokens file text = .error diagnostic) :
    readDocument file text = .error diagnostic := by
  rw [readDocument, fails]
  rfl

/-- What comes of reading a text. -/
theorem readDocument_cases (file text : String) :
    (∃ diagnostic, documentTokens file text = .error diagnostic ∧
        readDocument file text = .error diagnostic) ∨
      ∃ tokens, documentTokens file text = .ok tokens ∧
        readDocument file text = Document.ofTokens file tokens := by
  cases lexed : documentTokens file text with
  | error diagnostic => exact .inl ⟨diagnostic, rfl, readDocument_of_lexical lexed⟩
  | ok tokens => exact .inr ⟨tokens, rfl, readDocument_of_documentTokens lexed⟩

/-- A text that is read has become tokens. -/
theorem exists_tokens_of_readDocument (read : readDocument file text = .ok source) :
    ∃ tokens, documentTokens file text = .ok tokens ∧
      Document.ofTokens file tokens = .ok source := by
  rcases readDocument_cases file text with ⟨diagnostic, _, fails⟩ | ⟨tokens, lexed, made⟩
  · cases fails.symm.trans read
  · exact ⟨tokens, lexed, made.symm.trans read⟩

/-! ## Parses of documents -/

section

variable {registry : Registry} {session : Session} {selected : Option String}

/-- A name is resolved to the grammar that is found under it. -/
theorem selectGrammar_of_find? {name : String} {grammar : Grammar}
    (found : registry.find? name = some grammar) :
    selectGrammar registry source (some name) = .ok grammar := by
  show registry.resolve name _ = _
  rw [Registry.resolve, found]

/-- Under any other name nothing is selected. -/
theorem selectGrammar_of_unknown {name : String} (unknown : registry.find? name = none) :
    selectGrammar registry source (some name) =
      .error ⟨.unknownGrammar name registry.names,
        (source.directive.map (·.token.span)).getD (Span.fileStart inputFile)⟩ := by
  show registry.resolve name _ = _
  rw [Registry.resolve, unknown]

/-- What comes of selecting a grammar. -/
theorem selectGrammar_cases (registry : Registry) (source : Document) (selected : Option String) :
    (selected = none ∧ selectGrammar registry source selected =
        .error ⟨.noGrammar, Span.fileStart source.file⟩) ∨
      ∃ name, selected = some name ∧
        ((registry.find? name = none ∧ selectGrammar registry source selected =
            .error ⟨.unknownGrammar name registry.names,
              (source.directive.map (·.token.span)).getD (Span.fileStart inputFile)⟩) ∨
          ∃ grammar, registry.find? name = some grammar ∧
            selectGrammar registry source selected = .ok grammar) := by
  cases selected with
  | none => exact .inl ⟨rfl, rfl⟩
  | some name =>
    refine .inr ⟨name, rfl, ?_⟩
    cases found : registry.find? name with
    | none => exact .inl ⟨rfl, selectGrammar_of_unknown found⟩
    | some grammar => exact .inr ⟨grammar, rfl, selectGrammar_of_find? found⟩

/-- The sections of a document are read with the grammar that is selected. -/
theorem parseSections_of_selected {grammar : Grammar}
    (selects : selectGrammar registry source selected = .ok grammar) :
    parseSections registry session source selected = .ofOutcome selected
      (grammar.document source (session.log (.parsing session.file grammar.name))) := by
  rw [parseSections, selects]

/-- Without a grammar the sections of a document are not read. -/
theorem parseSections_of_unselected
    (refuses : selectGrammar registry source selected = .error diagnostic) :
    parseSections registry session source selected =
      { ParseResult.refused diagnostic with grammar := selected } := by
  rw [parseSections, refuses]

end

section

variable (registry : Registry) (defaultGrammar : Option String)

/-- A parse under a limit that admits no nesting is refused. -/
theorem parseDocument_of_small (small : limit < 1) :
    parseDocument registry file limit defaultGrammar text =
      .refused ⟨.invalidLimit limit, Span.fileStart file⟩ := by
  rw [parseDocument, Session.start_of_small file small]

/-- A text that is not read is not parsed. -/
theorem parseDocument_of_refused (positive : 1 ≤ limit)
    (refused : readDocument file text = .error diagnostic) :
    parseDocument registry file limit defaultGrammar text = .refused diagnostic := by
  simp only [parseDocument, Session.start_of_positive file positive, refused]

/-- A text that is read is parsed with the grammar of its directive or the default grammar. -/
theorem parseDocument_of_read (positive : 1 ≤ limit)
    (read : readDocument file text = .ok source) :
    parseDocument registry file limit defaultGrammar text =
      parseSections registry ⟨file, ⟨limit.toNat, 0⟩, [], []⟩ source
        ((source.directive.map Directive.grammar).or defaultGrammar) := by
  simp only [parseDocument, Session.start_of_positive file positive, read]

/-- What comes of a parse before sections are read. -/
theorem parseDocument_cases (file : String) (limit : Int) (text : String) :
    (limit < 1 ∧ parseDocument registry file limit defaultGrammar text =
        .refused ⟨.invalidLimit limit, Span.fileStart file⟩) ∨
      (1 ≤ limit ∧ ∃ diagnostic, readDocument file text = .error diagnostic ∧
        parseDocument registry file limit defaultGrammar text = .refused diagnostic) ∨
      (1 ≤ limit ∧ ∃ source, readDocument file text = .ok source ∧
        parseDocument registry file limit defaultGrammar text =
          parseSections registry ⟨file, ⟨limit.toNat, 0⟩, [], []⟩ source
            ((source.directive.map Directive.grammar).or defaultGrammar)) := by
  by_cases small : limit < 1
  · exact .inl ⟨small, parseDocument_of_small registry defaultGrammar small⟩
  have positive : 1 ≤ limit := Int.not_lt.mp small
  cases read : readDocument file text with
  | error diagnostic =>
    exact .inr (.inl ⟨positive, diagnostic, rfl,
      parseDocument_of_refused registry defaultGrammar positive read⟩)
  | ok source =>
    exact .inr (.inr ⟨positive, source, rfl,
      parseDocument_of_read registry defaultGrammar positive read⟩)

variable {registry defaultGrammar}

/-- A parse that yields a tree has read sections. -/
theorem exists_read_of_tree {tree : Node}
    (yields : (parseDocument registry file limit defaultGrammar text).tree = some tree) :
    1 ≤ limit ∧ ∃ source, readDocument file text = .ok source ∧
      parseDocument registry file limit defaultGrammar text =
        parseSections registry ⟨file, ⟨limit.toNat, 0⟩, [], []⟩ source
          ((source.directive.map Directive.grammar).or defaultGrammar) := by
  rcases parseDocument_cases registry defaultGrammar file limit text with
    ⟨_, refused⟩ | ⟨_, _, _, refused⟩ | ⟨positive, source, read, parsed⟩
  · rw [refused] at yields
    cases yields
  · rw [refused] at yields
    cases yields
  · exact ⟨positive, source, read, parsed⟩

end

/-! ## Parses of types -/

/-- A limit that admits no nesting is refused for types too. -/
theorem parseType_of_small (small : limit < 1) :
    parseType file limit text = .refused ⟨.invalidLimit limit, Span.fileStart file⟩ := by
  rw [parseType, Session.start_of_small file small]

/-- A text that becomes no tokens is not parsed as a type. -/
theorem parseType_of_lexical (positive : 1 ≤ limit)
    (fails : codeTokens .none file Position.origin text = .error diagnostic) :
    parseType file limit text = .refused diagnostic := by
  simp only [parseType, Session.start_of_positive file positive, fails]

/-- The rule of whole types reads the tokens of a text. -/
theorem parseType_of_tokens (positive : 1 ≤ limit)
    (lexed : codeTokens .none file Position.origin text = .ok tokens) :
    parseType file limit text = .ofOutcome none
      ((WalkM.runRule TypeExpr.complete tokens).run () ⟨file, ⟨limit.toNat, 0⟩, [], []⟩) := by
  simp only [parseType, Session.start_of_positive file positive, lexed]

/-- A text that is parsed as a type has become tokens. -/
theorem exists_tokens_of_parseType {tree : Node}
    (yields : (parseType file limit text).tree = some tree) :
    1 ≤ limit ∧ ∃ tokens, codeTokens .none file Position.origin text = .ok tokens := by
  by_cases small : limit < 1
  · rw [parseType_of_small small] at yields
    cases yields
  have positive : 1 ≤ limit := Int.not_lt.mp small
  refine ⟨positive, ?_⟩
  cases lexed : codeTokens .none file Position.origin text with
  | error diagnostic =>
    rw [parseType_of_lexical positive lexed] at yields
    cases yields
  | ok tokens => exact ⟨tokens, rfl⟩

end DocGrammar
