import DocGrammar.Document.OfTokens
import DocGrammar.Registry
import DocGrammar.Token.Document

/-! # Parsing documents and types

* **`parseDocument`** — reads a text with the grammar that its directive names, or with a default
  grammar.
* **`parseType`** — reads a text as a single type expression.
* **`detectGrammar`** — the grammar that the directive of a text names.

Parsing never fails: a malformed text yields a result with diagnostics. -/

namespace DocGrammar

/-! ## Results -/

/-- The outcome of a parse. -/
structure ParseResult where
  /-- The tree, unless the parse ended before there was one. -/
  tree : Option Node
  /-- The diagnostics, in order. -/
  diagnostics : List Diagnostic
  /-- The name of the grammar, if one was selected. -/
  grammar : Option String
  /-- What the parse did. -/
  events : List Event

namespace ParseResult

/-- Whether the parse yielded a tree without diagnostics. -/
def isSuccess (result : ParseResult) : Bool :=
  result.tree.isSome && result.diagnostics.isEmpty

/-- The message of a failed parse, if it did fail. -/
def failureMessage? (result : ParseResult) : Option String :=
  if result.isSuccess then none else some (Diagnostic.summary result.diagnostics)

/-- The result of a parse that ended before it began. -/
def refused (diagnostic : Diagnostic) : ParseResult := ⟨none, [diagnostic], none, []⟩

/-- The result of a parse that ended with the given outcome. -/
def ofOutcome (grammar : Option String) : EStateM.Result Failure Session Node → ParseResult
  | .ok tree session => ⟨some tree, session.diagnostics, grammar, session.events⟩
  | .error failure session =>
    ⟨none, session.diagnostics ++ [failure.diagnostic session.file], grammar, session.events⟩

end ParseResult

/-- The depth limit of a parse that states none. -/
def defaultLimit : Int := 100

/-! ## Documents -/

/-- The sections of a text. -/
def readDocument (file text : String) : Except Diagnostic Document := do
  Document.ofTokens file (← documentTokens file text)

/-- The grammar under a selected name, if a name is selected. -/
def selectGrammar (registry : Registry) (document : Document) (selected : Option String) :
    Except Diagnostic Grammar :=
  match selected with
  | none => .error ⟨.noGrammar, Span.fileStart document.file⟩
  | some name => registry.resolve name (document.directive.map (·.token.span))

/-- The result of reading a document with the grammar of a selected name. -/
def parseSections (registry : Registry) (session : Session) (document : Document)
    (selected : Option String) : ParseResult :=
  match selectGrammar registry document selected with
  | .error diagnostic => { ParseResult.refused diagnostic with grammar := selected }
  | .ok grammar =>
    .ofOutcome selected
      (grammar.document document (session.log (.parsing session.file grammar.name)))

/-- The result of reading a text with the grammar that its directive names, or with the default
grammar. -/
def parseDocument (registry : Registry) (file : String) (limit : Int)
    (defaultGrammar : Option String) (text : String) : ParseResult :=
  match Session.start file limit with
  | .error cause => .refused ⟨cause, Span.fileStart file⟩
  | .ok session =>
    match readDocument file text with
    | .error diagnostic => .refused diagnostic
    | .ok document =>
      parseSections registry session document
        ((document.directive.map Directive.grammar).or defaultGrammar)

/-! ## Types -/

/-- The result of reading a text as a single type expression. -/
def parseType (file : String) (limit : Int) (text : String) : ParseResult :=
  match Session.start file limit with
  | .error cause => .refused ⟨cause, Span.fileStart file⟩
  | .ok session =>
    match codeTokens .none file Position.origin text with
    | .error diagnostic => .refused diagnostic
    | .ok tokens =>
      .ofOutcome none ((WalkM.runRule TypeExpr.complete tokens).run () session)

/-! ## Detection -/

/-- The grammar that the first line of a text names. -/
def detectGrammar (text : String) : Option String :=
  grammarNameOf? (dropReturn ((feedLines text.toList).headD []))

end DocGrammar
