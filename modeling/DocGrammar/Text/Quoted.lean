import DocGrammar.Text.Printable

/-! # Quoted texts in messages

Messages and token listings show a text between quotes, with everything that could mislead a
reader escaped. Apostrophes enclose the text, unless it holds an apostrophe and no double quote. -/

namespace DocGrammar

/-! ## Hexadecimal numbers -/

/-- The hexadecimal digits of `number`, padded with zeros to at least `width` digits. -/
def hexDigits (width number : Nat) : List Char :=
  let digits := Nat.toDigits 16 number
  List.replicate (width - digits.length) '0' ++ digits

/-! ## Quoting -/

/-- The mark that encloses a quoted text. -/
def quotationMark (chars : List Char) : Char :=
  if chars.contains '\'' && !chars.contains '"' then '"' else '\''

/-- The escape of a character that is not printable, by its code point. -/
def codePointEscape (char : Char) : List Char :=
  if char.toNat < 0x100 then '\\' :: 'x' :: hexDigits 2 char.toNat
  else if char.toNat < 0x10000 then '\\' :: 'u' :: hexDigits 4 char.toNat
  else '\\' :: 'U' :: hexDigits 8 char.toNat

/-- How a character is written between two marks `mark`. -/
def quotedChar (mark char : Char) : List Char :=
  if char = mark || char = '\\' then ['\\', char]
  else if char = '\n' then ['\\', 'n']
  else if char = '\r' then ['\\', 'r']
  else if char = '\t' then ['\\', 't']
  else if isPrintable char then [char]
  else codePointEscape char

/-- A text between quotation marks, with its unprintable characters escaped. -/
def quoted (text : String) : String :=
  let mark := quotationMark text.toList
  String.ofList (mark :: text.toList.flatMap (quotedChar mark) ++ [mark])

end DocGrammar
