import DocGrammar.Text.Lines
import DocGrammar.Tree.OutlineReader

/-! # Fixture files

A fixture file holds cases. A case has a header with its name and attributes, an input text, a
divider of three hyphens, and the outline of the expected tree. The header is either a rule of
equals signs, the name, attribute lines and another rule, or a single line with the name between
two rules.

* **`FixtureCase`** — one case.
* **`readFixture`** — the cases of a file, or what is wrong with it. -/

namespace DocGrammar

/-! ## Cases -/

/-- The attributes of a case. -/
structure CaseAttributes where
  /-- The grammar that the header names. -/
  grammar : Option String
  /-- The value of the type attribute, which marks the input as a type expression. -/
  type : Option String
  deriving DecidableEq, Repr

/-- A case of a fixture file. -/
structure FixtureCase where
  /-- The name of the case. -/
  name : String
  /-- The text to parse. -/
  input : String
  /-- The outline of the tree that is expected. -/
  expected : Outline
  /-- The number of the first line of the header. -/
  line : Nat
  /-- The attributes of the header. -/
  attributes : CaseAttributes
  deriving Repr

namespace FixtureCase

/-- The grammar of a case, unless it leaves the choice to the input or to the default. -/
def grammar (case : FixtureCase) : Option String :=
  case.attributes.grammar.filter (!·.isEmpty)

/-- Whether the input of a case is a type expression. -/
def isType (case : FixtureCase) : Bool := case.attributes.type.isSome

end FixtureCase

/-! ## Errors -/

/-- What is wrong with a fixture file. -/
inductive FixtureFault where
  /-- A line where a header has to start. -/
  | missingHeader (line : String)
  /-- A rule without a name below it. -/
  | missingName
  /-- A header line that is no attribute. -/
  | unexpectedHeaderLine (line : String)
  /-- A header without its closing rule. -/
  | unterminatedHeader (name : String)
  /-- A case without a divider. -/
  | missingDivider (name : String)
  /-- A case without an expected tree. -/
  | missingTree (name : String)
  /-- A case whose expected tree is malformed. -/
  | malformedTree (name : String) (error : OutlineError)
  deriving DecidableEq, Repr

/-- Something wrong with a fixture file, at a line. -/
structure FixtureError where
  /-- What is wrong. -/
  fault : FixtureFault
  /-- The number of the line. -/
  line : Nat
  deriving DecidableEq, Repr

/-- The wording of a fault. -/
def FixtureFault.message : FixtureFault → String
  | missingHeader line => "expected a '===' case header, got " ++ quoted line
  | missingName => "missing case name"
  | unexpectedHeaderLine line => "unexpected header line " ++ quoted line
  | unterminatedHeader name => "unterminated header for case " ++ quoted name
  | missingDivider name => "case " ++ quoted name ++ " has no '---' divider"
  | missingTree name => "case " ++ quoted name ++ " has no expected tree"
  | malformedTree name error => "case " ++ quoted name ++ ": " ++ error.message

/-- The wording of an error, with its line. -/
def FixtureError.message (error : FixtureError) : String :=
  "line " ++ toString error.line ++ ": " ++ error.fault.message

/-! ## Header lines -/

/-- Whether a text is a rule: at least three equals signs, and white space behind them. -/
def isRule (line : List Char) : Bool :=
  3 ≤ (line.takeWhile (· = '=')).length && (line.dropWhile (· = '=')).all isBlank

/-- Whether a text is white space and a rule behind it. -/
def isClosingRule (text : List Char) : Bool :=
  (text.head?.map isBlank).getD false && isRule (text.dropWhile isBlank)

/-- The shortest start of a text, not empty, that a closing rule follows. -/
def nameBeforeRule? : List Char → Option (List Char)
  | [] => none
  | char :: rest =>
    if isClosingRule rest then some [char] else (nameBeforeRule? rest).map (char :: ·)

/-- The name in a header of a single line. As much white space as possible stands between the
opening rule and the name. -/
def inlineName? (line : List Char) : Option String :=
  let behindRule := line.dropWhile (· = '=')
  let blanks := (behindRule.takeWhile isBlank).length
  if (line.takeWhile (· = '=')).length < 3 then none
  else
    ((List.range blanks).findSome? fun spared =>
      nameBeforeRule? (behindRule.drop (blanks - spared))).map String.ofList

/-- Whether a line starts a header. -/
def isHeaderLine (line : List Char) : Bool :=
  isRule line || (inlineName? line).isSome

/-- Whether a line divides the input of a case from its tree. -/
def isDivider (line : List Char) : Bool := trimEnd line = ['-', '-', '-']

/-- Whether an attribute name may hold a character. -/
def isAttributeChar (char : Char) : Bool :=
  ('a' ≤ char && char ≤ 'z') || char = '_'

/-- The name and the value of an attribute line without white space around it. -/
def attributeParts? : List Char → Option (String × String)
  | ':' :: rest =>
    let name := rest.takeWhile isAttributeChar
    if name.isEmpty then none
    else
      match rest.drop name.length with
      | [] => some (String.ofList name, "")
      | '(' :: inner =>
        let value := inner.takeWhile (· ≠ ')')
        if inner.drop value.length = [')'] then
          some (String.ofList name, String.ofList (trim value))
        else none
      | _ => none
  | _ => none

/-- The attributes with that of a header line, if the line is a known attribute. -/
def CaseAttributes.add? (attributes : CaseAttributes) (line : List Char) :
    Option CaseAttributes :=
  match attributeParts? (trim line) with
  | some ("grammar", value) => some { attributes with grammar := some value }
  | some ("type", value) => some { attributes with type := some value }
  | _ => none

/-- The attributes of header lines from line `number` on. -/
def CaseAttributes.addAll (attributes : CaseAttributes) (number : Nat) :
    List (List Char) → Except FixtureError CaseAttributes
  | [] => .ok attributes
  | line :: others =>
    match attributes.add? line with
    | none => .error ⟨.unexpectedHeaderLine (String.ofList line), number⟩
    | some extended => extended.addAll (number + 1) others

/-! ## Headers -/

/-- The header of a case. -/
structure CaseHeader where
  /-- The name of the case. -/
  name : String
  /-- The attributes of the case. -/
  attributes : CaseAttributes
  /-- The number of header lines behind the first one. -/
  extra : Nat
  deriving DecidableEq, Repr

/-- The header that starts with line `first`, of number `number`, before the lines `rest`. -/
def CaseHeader.read (number : Nat) (first : List Char) (rest : List (List Char)) :
    Except FixtureError CaseHeader :=
  match inlineName? first with
  | some name => .ok ⟨name, ⟨none, none⟩, 0⟩
  | none =>
    if !isRule first then .error ⟨.missingHeader (String.ofList first), number⟩
    else
      match rest with
      | [] => .error ⟨.missingName, number + 1⟩
      | nameLine :: more =>
        if nameLine.all isBlank then .error ⟨.missingName, number + 1⟩
        else do
          let name := String.ofList (trim nameLine)
          let attributeLines := more.takeWhile (!isRule ·)
          let attributes ← CaseAttributes.addAll ⟨none, none⟩ (number + 2) attributeLines
          if attributeLines.length = more.length then
            .error ⟨.unterminatedHeader name, number + rest.length⟩
          return ⟨name, attributes, attributeLines.length + 2⟩

/-! ## Bodies -/

/-- Lines joined by line feeds. -/
def joinLines (lines : List (List Char)) : List Char :=
  List.intercalate ['\n'] lines

/-- The case below a header at line `number`, and the number of its lines. -/
def FixtureCase.read (number : Nat) (header : CaseHeader) (lines : List (List Char)) :
    Except FixtureError (FixtureCase × Nat) :=
  let body := lines.takeWhile fun line => !isDivider line && !isHeaderLine line
  match lines.drop body.length with
  | [] => .error ⟨.missingDivider header.name, number⟩
  | divider :: rest =>
    if !isDivider divider then .error ⟨.missingDivider header.name, number⟩
    else
      let treeLines := rest.takeWhile (!isHeaderLine ·)
      let treeText := trim (joinLines treeLines)
      if treeText.isEmpty then .error ⟨.missingTree header.name, number⟩
      else
        match Outline.read (String.ofList treeText) with
        | .error error => .error ⟨.malformedTree header.name error, number⟩
        | .ok expected =>
          let input := String.ofList (trimWhile (· = '\n') (joinLines body))
          .ok (⟨header.name, input, expected, number, header.attributes⟩,
            body.length + 1 + treeLines.length)

/-! ## Files -/

/-- The cases of the lines from line `number` on. -/
def casesFrom (number : Nat) : List (List Char) → Except FixtureError (List FixtureCase)
  | [] => .ok []
  | first :: rest => do
    let header ← CaseHeader.read number first rest
    let (case, size) ← FixtureCase.read number header (rest.drop header.extra)
    let others ← casesFrom (number + 1 + header.extra + size) (rest.drop (header.extra + size))
    return case :: others
termination_by lines => lines.length
decreasing_by simp only [List.length_drop, List.length_cons]; omega

/-- The cases of a fixture file. Blank lines may stand before the first. -/
def readFixture (text : String) : Except FixtureError (List FixtureCase) :=
  let lines := breakLines text.toList
  let blanks := (lines.takeWhile (·.all isBlank)).length
  casesFrom (blanks + 1) (lines.drop blanks)

end DocGrammar
