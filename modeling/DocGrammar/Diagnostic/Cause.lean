import DocGrammar.Token.Basic

/-! # Causes of failure

A document is refused for one of the causes below. A cause determines everything that a diagnostic
says besides its place:

* **`Cause.kind`** — the class of the failure;
* **`Cause.message`** — its wording;
* **`Cause.expected`** — what would have been accepted instead. -/

namespace DocGrammar

/-! ## Classes of failure -/

/-- The class of a failure. -/
inductive FailureKind where
  /-- A character or a literal that no token starts with; it ends the parse. -/
  | lexical
  /-- No grammar, an unknown grammar or a malformed directive; it ends the parse. -/
  | selection
  /-- Illegal order of sections, an unknown heading or an open fence. -/
  | structural
  /-- An unexpected token inside a construct. -/
  | syntactic
  /-- A malformed type expression. -/
  | typing
  /-- Nesting beyond the limit. -/
  | depth
  deriving DecidableEq, Repr, Inhabited

namespace FailureKind

/-- The name of a class in diagnostics. -/
def name : FailureKind → String
  | lexical => "LexError"
  | selection => "GrammarSelectionError"
  | structural => "StructuralError"
  | syntactic => "SyntaxError"
  | typing => "TypeSpecError"
  | depth => "DepthExceededError"

/-- The code of a class in rendered diagnostics. -/
def code : FailureKind → String
  | lexical => "E100"
  | selection => "E110"
  | structural => "E120"
  | syntactic => "E200"
  | typing => "E210"
  | depth => "E300"

/-- Whether a grammar recovers from failures of this class by dropping the section at fault. -/
def isRecoverable : FailureKind → Bool
  | lexical | selection => false
  | structural | syntactic | typing | depth => true

end FailureKind

/-! ## Causes -/

/-- Why a document, or a part of it, is refused. -/
inductive Cause where
  /-- A character that starts no token, or a control character. -/
  | unexpectedCharacter (char : Char)
  /-- A string between triple quotes without its end. -/
  | unterminatedTripleString
  /-- A string that does not end on its line. -/
  | unterminatedString
  /-- A backslash at the end of the text. -/
  | unfinishedEscape
  /-- A backslash before a character that is no escape. -/
  | unknownEscape (char : Char)
  /-- A pattern that does not end on its line. -/
  | unterminatedPattern
  /-- A directive line that does not name a grammar. -/
  | malformedShebang (text : String)
  /-- A document without a directive, parsed without a default grammar. -/
  | noGrammar
  /-- A name that is not registered, with the names that are. -/
  | unknownGrammar (name : String) (known : List String)
  /-- A document token other than the one that its neighbour calls for. -/
  | missingToken (wanted found : TokenKind)
  /-- A document token in a place where it cannot stand. -/
  | misplacedToken (found : TokenKind)
  /-- A fenced block that the document ends in. -/
  | unterminatedFence
  /-- Content before the first heading of a specs document. -/
  | contentOutsideSection
  /-- A feature heading at a level other than one. -/
  | featureLevel
  /-- A feature heading behind another section. -/
  | featureNotFirst
  /-- A heading that opens no known section. -/
  | unknownHeading (title : String) (known : List String)
  /-- A section heading at a level other than two. -/
  | sectionLevel (title : String)
  /-- A feature heading without a name. -/
  | missingFeatureName
  /-- Text or a link below a feature heading. -/
  | contentAfterFeature
  /-- A link in the body of a specs section. -/
  | linkInSection
  /-- An intent section without a declaration. -/
  | emptyIntent
  /-- An intent section with more than its declaration. -/
  | secondDeclaration
  /-- A token other than those that may continue a construct. -/
  | unexpectedToken (found : TokenKind) (value : String) (wanted : List String)
  /-- A token other than those that may continue a type expression. -/
  | malformedType (found : TokenKind) (value : String) (wanted : List String)
  /-- Nesting deeper than the limit of the parse. -/
  | tooDeep (limit : Nat)
  /-- A limit that admits no nesting at all. -/
  | invalidLimit (limit : Int)
  /-- A rule that ran out of its own resources. -/
  | exhausted
  /-- A failure with a wording of its own, as rules outside this library report it. -/
  | custom (kind : FailureKind) (message : String) (wanted : List String)
  deriving DecidableEq, Repr

namespace Cause

/-- The directive that a document starts with, as messages show it. -/
def shebangForm : String := "#!/grammars/<name> parse"

/-- The class of a cause. -/
def kind : Cause → FailureKind
  | unexpectedCharacter _ | unterminatedTripleString | unterminatedString | unfinishedEscape
  | unknownEscape _ | unterminatedPattern => .lexical
  | malformedShebang _ | noGrammar | unknownGrammar _ _ => .selection
  | missingToken _ _ | misplacedToken _ | unterminatedFence | contentOutsideSection | featureLevel
  | featureNotFirst | unknownHeading _ _ | sectionLevel _ => .structural
  | missingFeatureName | contentAfterFeature | linkInSection | emptyIntent | secondDeclaration
  | unexpectedToken _ _ _ => .syntactic
  | malformedType _ _ _ => .typing
  | tooDeep _ | invalidLimit _ | exhausted => .depth
  | custom kind _ _ => kind

/-- What would have been accepted in place of the cause. -/
def expected : Cause → List String
  | malformedShebang _ | noGrammar => [shebangForm]
  | unknownGrammar _ known => known
  | unterminatedFence => ["closing '\x60\x60\x60'"]
  | contentOutsideSection => ["'# Feature:'", "'## <Section>'"]
  | featureLevel => ["'# Feature:'"]
  | unknownHeading _ known => known
  | sectionLevel title => ["'## " ++ title ++ "'"]
  | missingFeatureName => ["feature name"]
  | contentAfterFeature => ["'## <Section>'"]
  | emptyIntent => ["intent declaration"]
  | secondDeclaration => ["end of section"]
  | unexpectedToken _ _ wanted | malformedType _ _ wanted | custom _ _ wanted => wanted
  | _ => []

/-- The alternatives of a message, joined by `or`. -/
def alternatives (wanted : List String) : String :=
  " or ".intercalate wanted

/-- The wording of a cause. -/
def message : Cause → String
  | unexpectedCharacter char => "unexpected character: " ++ quoted char.toString
  | unterminatedTripleString => "unterminated triple-quoted string"
  | unterminatedString => "unterminated string literal"
  | unfinishedEscape => "unexpected end of escape sequence"
  | unknownEscape char => "unknown escape sequence: \\" ++ char.toString
  | unterminatedPattern => "unterminated pattern literal"
  | malformedShebang text => "malformed shebang directive " ++ quoted text
  | noGrammar => "no grammar selected: add a shebang or pass a default grammar"
  | unknownGrammar name _ => "unknown grammar " ++ quoted name
  | missingToken wanted found =>
    "malformed markdown: expected " ++ wanted.name ++ ", got " ++ found.name
  | misplacedToken found => "unexpected " ++ found.name ++ " token"
  | unterminatedFence => "unterminated fenced block"
  | contentOutsideSection => "content outside of a section"
  | featureLevel => "'Feature:' must be a level-1 heading"
  | featureNotFirst => "the Feature section must precede all other sections"
  | unknownHeading title _ => "unknown section heading " ++ quoted title
  | sectionLevel title => "'" ++ title ++ "' must be a level-2 heading"
  | missingFeatureName => "missing feature name"
  | contentAfterFeature => "unexpected content after the feature heading"
  | linkInSection => "context links are not allowed in specs sections"
  | emptyIntent => "empty Intent section"
  | secondDeclaration => "the Intent section holds a single declaration"
  | unexpectedToken found value [] => "unexpected " ++ found.describe value
  | unexpectedToken found value wanted =>
    "unexpected " ++ found.describe value ++ ", expected " ++ alternatives wanted
  | malformedType found value wanted =>
    "malformed type: unexpected " ++ found.describe value ++ ", expected " ++ alternatives wanted
  | tooDeep limit => "nesting exceeds the maximum depth of " ++ toString limit
  | invalidLimit limit => "max_depth must be positive, got " ++ toString limit
  | exhausted => "nesting exceeds the interpreter recursion limit"
  | custom _ message _ => message

end Cause

end DocGrammar
