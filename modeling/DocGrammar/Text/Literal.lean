/-! # String literals of trees

A rendered tree shows the text of a leaf as a literal between double quotes. Writing escapes the
quote, the backslash, the line feed and the tab; reading accepts the string literals of JSON.

* **`Literal.encode`** writes a literal.
* **`Literal.decode?`** reads what stands between the quotes of a literal. -/

namespace DocGrammar

namespace Literal

/-! ## Writing -/

/-- How a character is written in a literal. -/
def encodeChar (char : Char) : List Char :=
  if char = '\\' then ['\\', '\\']
  else if char = '"' then ['\\', '"']
  else if char = '\n' then ['\\', 'n']
  else if char = '\t' then ['\\', 't']
  else [char]

/-- The literal of a text, with its quotes. -/
def encode (text : String) : String :=
  String.ofList ('"' :: text.toList.flatMap encodeChar ++ ['"'])

/-! ## Reading -/

/-- The value of a hexadecimal digit. -/
def hexValue? (char : Char) : Option Nat :=
  if '0' ≤ char && char ≤ '9' then some (char.toNat - '0'.toNat)
  else if 'a' ≤ char && char ≤ 'f' then some (char.toNat - 'a'.toNat + 10)
  else if 'A' ≤ char && char ≤ 'F' then some (char.toNat - 'A'.toNat + 10)
  else none

/-- The value of a run of hexadecimal digits. -/
def hexNumber? (digits : List Char) : Option Nat :=
  digits.foldlM (fun value digit => (hexValue? digit).map (value * 16 + ·)) 0

/-- The character that a one-letter escape stands for. -/
def simpleEscape? (letter : Char) : Option Char :=
  if letter = '"' || letter = '\\' || letter = '/' then some letter
  else if letter = 'b' then some (Char.ofNat 0x8)
  else if letter = 'f' then some (Char.ofNat 0xc)
  else if letter = 'n' then some '\n'
  else if letter = 'r' then some '\r'
  else if letter = 't' then some '\t'
  else none

/-- The units of the text between the quotes of a literal: a code point for each plain character
and simple escape, a sixteen-bit unit for each numeric escape. Nothing is read from a text with an
unknown escape or a bare control character. -/
def units? : List Char → Option (List Nat)
  | [] => some []
  | '\\' :: 'u' :: a :: b :: c :: d :: rest => do
    let unit ← hexNumber? [a, b, c, d]
    return unit :: (← units? rest)
  | '\\' :: letter :: rest => do
    let char ← simpleEscape? letter
    return char.toNat :: (← units? rest)
  | char :: rest => do
    if char < ' ' || char = '\\' then none else return char.toNat :: (← units? rest)

/-- Whether a unit is the first half of a surrogate pair. -/
def isHighSurrogate (unit : Nat) : Bool :=
  0xd800 ≤ unit && unit < 0xdc00

/-- Whether a unit is the second half of a surrogate pair. -/
def isLowSurrogate (unit : Nat) : Bool :=
  0xdc00 ≤ unit && unit < 0xe000

/-- The character of a unit that is no half of a pair; a lone half becomes the replacement
character. -/
def unitChar (unit : Nat) : Char :=
  if isHighSurrogate unit || isLowSurrogate unit then Char.ofNat 0xfffd else Char.ofNat unit

/-- The characters of a sequence of units, with each surrogate pair joined. -/
def joinUnits : List Nat → List Char
  | [] => []
  | [unit] => [unitChar unit]
  | high :: low :: rest =>
    if isHighSurrogate high && isLowSurrogate low then
      Char.ofNat (0x10000 + (high - 0xd800) * 0x400 + (low - 0xdc00)) :: joinUnits rest
    else unitChar high :: joinUnits (low :: rest)

/-- The text of a literal, read from the characters between its quotes. -/
def decode? (chars : List Char) : Option String :=
  (units? chars).map fun units => String.ofList (joinUnits units)

end Literal

end DocGrammar
