import DocGrammar.Config.Toml.Table
import DocGrammar.Text.Digit
import DocGrammar.Text.Letter
import DocGrammar.Text.Literal

/-! # Keys, strings and numbers of a settings file

The parts of a settings file that hold no other values. A reader takes the characters from a place
on and yields a value with the characters behind it, or nothing if the text is malformed.

* **`Toml.key?`** — a path of keys with dots between them.
* **`Toml.string?`** — a string in any of its four forms.
* **`Toml.number?`** — a whole number or a float. -/

namespace DocGrammar

namespace Toml

/-- A reader of part of a settings file. -/
abbrev Reader (α : Type) : Type := List Char → Option (α × List Char)

/-! ## Characters -/

/-- Whether a character is white space on a line. -/
def isSpace (char : Char) : Bool := char = ' ' || char = '\t'

/-- Whether a character is a control character. -/
def isControl (char : Char) : Bool := char < ' ' || char = Char.ofNat 0x7f

/-- Whether a character may not stand in a comment or in a string on one line. -/
def isIllegal (char : Char) : Bool := isControl char && char ≠ '\t'

/-- Whether a character may not stand in a string on several lines. -/
def isIllegalInLines (char : Char) : Bool := isIllegal char && char ≠ '\n'

/-- Whether a key without quotes may hold a character. -/
def isKeyChar (char : Char) : Bool :=
  isAsciiLetter char || isAsciiDigit char || char = '-' || char = '_'

/-- The text without white space at its start. -/
def skipSpaces (chars : List Char) : List Char := chars.dropWhile isSpace

/-! ## Strings -/

/-- The character of a numeric escape of the given number of digits. -/
def codePoint? (digits : List Char) (count : Nat) : Option Char := do
  let value ← Literal.hexNumber? digits
  if digits.length = count && value < 0x110000 && !(0xd800 ≤ value && value < 0xe000) then
    some (Char.ofNat value)
  else none

/-- The character of a one-letter escape. -/
def escape? (letter : Char) : Option Char :=
  if letter = '/' then none else Literal.simpleEscape? letter

/-- The text behind a backslash that joins two lines: white space up to a line feed, and all white
space behind it. At the end of the text the line feed may be missing. -/
def joined? (chars : List Char) : Option (List Char) :=
  match skipSpaces chars with
  | [] => some []
  | '\n' :: rest => some (rest.dropWhile fun char => isSpace char || char = '\n')
  | _ => none

/-- A string between double quotes, from behind the opening quotes. A string `inLines` may span
several lines, and three quotes end it. At most `fuel` characters are read. -/
def basicContent? (inLines : Bool) : Nat → Reader (List Char)
  | 0, _ => none
  | _ + 1, [] => none
  | fuel + 1, '"' :: rest =>
    if !inLines then some ([], rest)
    else
      match rest with
      | '"' :: '"' :: behind => some ([], behind)
      | _ => (basicContent? inLines fuel rest).map fun (more, behind) => ('"' :: more, behind)
  | fuel + 1, '\\' :: rest =>
    match rest with
    | [] => none
    | letter :: behindLetter => do
      if inLines && (isSpace letter || letter = '\n') then
        basicContent? inLines fuel (← joined? rest)
      else
        let (char, behindEscape) ←
          if letter = 'u' then
            (codePoint? (behindLetter.take 4) 4).map (·, behindLetter.drop 4)
          else if letter = 'U' then
            (codePoint? (behindLetter.take 8) 8).map (·, behindLetter.drop 8)
          else (escape? letter).map (·, behindLetter)
        let (more, behind) ← basicContent? inLines fuel behindEscape
        return (char :: more, behind)
  | fuel + 1, char :: rest =>
    if if inLines then isIllegalInLines char else isIllegal char then none
    else (basicContent? inLines fuel rest).map fun (more, behind) => (char :: more, behind)

/-- A string between apostrophes on one line, from behind the opening one. -/
def literalContent? : Reader (List Char)
  | [] => none
  | '\'' :: rest => some ([], rest)
  | char :: rest =>
    if isIllegal char then none
    else (literalContent? rest).map fun (more, behind) => (char :: more, behind)

/-- A string between triple apostrophes, from behind the opening ones. -/
def literalLines? : Reader (List Char)
  | [] => none
  | '\'' :: '\'' :: '\'' :: rest => some ([], rest)
  | char :: rest =>
    if isIllegalInLines char then none
    else (literalLines? rest).map fun (more, behind) => (char :: more, behind)

/-- At most two more marks behind the closing marks of a string on several lines belong to it. -/
def closeLines (mark : Char) (content : List Char) (rest : List Char) : List Char × List Char :=
  let extra := ((rest.take 2).takeWhile (· = mark)).length
  (content ++ List.replicate extra mark, rest.drop extra)

/-- The text without a line feed at its start. -/
def dropFeed : List Char → List Char
  | '\n' :: rest => rest
  | chars => chars

/-- A string in any of its four forms. -/
def string? : Reader (List Char)
  | '"' :: '"' :: '"' :: rest => do
    let (content, behind) ← basicContent? true (rest.length + 1) (dropFeed rest)
    return closeLines '"' content behind
  | '"' :: rest => basicContent? false (rest.length + 1) rest
  | '\'' :: '\'' :: '\'' :: rest => do
    let (content, behind) ← literalLines? (dropFeed rest)
    return closeLines '\'' content behind
  | '\'' :: rest => literalContent? rest
  | _ => none

/-! ## Keys -/

/-- A single key: bare, or a string on one line. -/
def keyPart? (chars : List Char) : Option (String × List Char) :=
  match chars with
  | '"' :: rest =>
    (basicContent? false (rest.length + 1) rest).map fun (name, behind) =>
      (String.ofList name, behind)
  | '\'' :: rest => (literalContent? rest).map fun (name, behind) => (String.ofList name, behind)
  | _ =>
    let name := chars.takeWhile isKeyChar
    if name.isEmpty then none else some (String.ofList name, chars.drop name.length)

/-- A path of at most `fuel` keys with dots between them. -/
def keyPath? : Nat → Reader Path
  | 0, _ => none
  | fuel + 1, chars => do
    let (part, rest) ← keyPart? chars
    match skipSpaces rest with
    | '.' :: behindDot =>
      let (others, behind) ← keyPath? fuel (skipSpaces behindDot)
      return (part :: others, behind)
    | behind => return ([part], behind)

/-- A path of keys, and the text behind the white space that follows it. -/
def key? (chars : List Char) : Option (Path × List Char) := keyPath? (chars.length + 1) chars

/-! ## Numbers -/

/-- More digits of a number, single underscores between them left out. -/
def moreDigits (isDigit : Char → Bool) : List Char → List Char × List Char
  | [] => ([], [])
  | ['_'] => ([], ['_'])
  | '_' :: next :: rest =>
    if isDigit next then
      let (more, behind) := moreDigits isDigit rest
      (next :: more, behind)
    else ([], '_' :: next :: rest)
  | char :: rest =>
    if isDigit char then
      let (more, behind) := moreDigits isDigit rest
      (char :: more, behind)
    else ([], char :: rest)

/-- One or more digits of a number. -/
def digits? (isDigit : Char → Bool) : Reader (List Char)
  | [] => none
  | char :: rest =>
    if isDigit char then
      let (more, behind) := moreDigits isDigit rest
      some (char :: more, behind)
    else none

/-- The value of digits to a base. -/
def digitsValue (base : Nat) (digits : List Char) : Nat :=
  digits.foldl (fun value digit => value * base + (Literal.hexValue? digit).getD 0) 0

/-- Whether a character is a hexadecimal digit. -/
def isHexDigit (char : Char) : Bool := (Literal.hexValue? char).isSome

/-- A number with a base mark. -/
def basedNumber? : Reader Toml
  | '0' :: 'x' :: rest => (digits? isHexDigit rest).map fun (digits, behind) =>
      (.integer (digitsValue 16 digits), behind)
  | '0' :: 'b' :: rest => (digits? (fun char => char = '0' || char = '1') rest).map
      fun (digits, behind) => (.integer (digitsValue 2 digits), behind)
  | '0' :: 'o' :: rest => (digits? (fun char => '0' ≤ char && char ≤ '7') rest).map
      fun (digits, behind) => (.integer (digitsValue 8 digits), behind)
  | _ => none

/-- The digits before the point: a zero, or digits that do not start with one. -/
def wholeDigits? : Reader (List Char)
  | '0' :: rest => some (['0'], rest)
  | chars => digits? isAsciiDigit chars

/-- The text of a fraction, if there is one, and the text behind it. -/
def fraction (chars : List Char) : List Char × List Char :=
  match chars with
  | '.' :: rest =>
    match digits? isAsciiDigit rest with
    | some (digits, behind) => ('.' :: digits, behind)
    | none => ([], chars)
  | _ => ([], chars)

/-- A sign, if there is one, and the text behind it. -/
def sign : List Char → List Char × List Char
  | '+' :: rest => (['+'], rest)
  | '-' :: rest => (['-'], rest)
  | chars => ([], chars)

/-- The text of an exponent, if there is one, and the text behind it. -/
def exponent (chars : List Char) : List Char × List Char :=
  match chars with
  | mark :: rest =>
    let (signChars, behindSign) := sign rest
    match if mark = 'e' || mark = 'E' then digits? isAsciiDigit behindSign else none with
    | some (digits, behind) => (mark :: signChars ++ digits, behind)
    | none => ([], chars)
  | [] => ([], [])

/-- A decimal number, with a sign, a fraction and an exponent if they are there. -/
def decimal? (chars : List Char) : Option (Toml × List Char) := do
  let (signChars, behindSign) := sign chars
  let (whole, behindWhole) ← wholeDigits? behindSign
  let (fractionChars, behindFraction) := fraction behindWhole
  let (exponentChars, behind) := exponent behindFraction
  if fractionChars.isEmpty && exponentChars.isEmpty then
    let value : Int := digitsValue 10 whole
    return (.integer (if signChars = ['-'] then -value else value), behind)
  return (.float (String.ofList (signChars ++ whole ++ fractionChars ++ exponentChars)), behind)

/-- A float that is no number or has no bound. -/
def specialFloat? (chars : List Char) : Option (Toml × List Char) :=
  let (signChars, rest) := sign chars
  let name := String.ofList (rest.take 3)
  if name = "inf" || name = "nan" then
    some (.float (String.ofList signChars ++ name), rest.drop 3)
  else none

/-- A number. -/
def number? (chars : List Char) : Option (Toml × List Char) :=
  (basedNumber? chars).or ((decimal? chars).or (specialFloat? chars))

end Toml

end DocGrammar
