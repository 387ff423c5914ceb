/-! # Grammar names and directives

The first line of a document can name its grammar. A grammar name is a lower-case letter followed
by lower-case letters, digits and hyphens.

* **`grammarNameOf?`** — the name in a directive line.
* **`isGrammarName`** — whether a text may be registered as a grammar name. -/

namespace DocGrammar

/-- Whether a grammar name may start with a character. -/
def isGrammarNameStart (char : Char) : Bool :=
  'a' ≤ char && char ≤ 'z'

/-- Whether a grammar name may continue with a character. -/
def isGrammarNameChar (char : Char) : Bool :=
  isGrammarNameStart char || ('0' ≤ char && char ≤ '9') || char = '-'

/-- Whether nothing, or only a final line feed, is left of a text. -/
def isAtLineEnd (rest : List Char) : Bool :=
  rest = [] || rest = ['\n']

/-- Whether a text is a grammar name, up to a final line feed. -/
def isGrammarName (text : String) : Bool :=
  match text.toList with
  | [] => false
  | first :: rest => isGrammarNameStart first && isAtLineEnd (rest.dropWhile isGrammarNameChar)

/-- What stands before the name in a directive. -/
def directiveOpening : List Char := "#!/grammars/".toList

/-- What stands behind the name in a directive. -/
def directiveClosing : List Char := " parse".toList

/-- The grammar name in a directive line. -/
def grammarNameOf? (line : List Char) : Option String := do
  let behindOpening ← directiveOpening.isPrefixOf? line
  let name := behindOpening.takeWhile isGrammarNameChar
  let rest ← directiveClosing.isPrefixOf? (behindOpening.drop name.length)
  if (name.head?.map isGrammarNameStart).getD false && isAtLineEnd rest then
    some (String.ofList name)
  else none

end DocGrammar
