import DocGrammar.Text.Digit

/-! # Command-line arguments

Arguments are options, which start with a hyphen, and positional arguments. A long option may take
its value behind an equals sign, a short one directly behind its letter; short options can share a
hyphen. A double hyphen ends the options.

* **`OptionTable`** — the options of a command.
* **`readArguments`** — the options and the positional arguments, or nothing if they are used
  wrongly. -/

namespace DocGrammar

/-- An option that a command knows. -/
structure KnownOption where
  /-- The name under which its use is reported. -/
  name : String
  /-- The ways to write it, with their hyphens. -/
  forms : List String
  /-- Whether a value follows it. -/
  takesValue : Bool
  deriving DecidableEq, Repr

/-- The options that a command knows. -/
abbrev OptionTable : Type := List KnownOption

/-- An option that was used: its name, and its value or nothing. -/
abbrev UsedOption : Type := String × Option String

/-- The options and the positional arguments of a command, in order. -/
structure Arguments where
  /-- The options. -/
  options : List UsedOption
  /-- The positional arguments. -/
  positional : List String
  deriving DecidableEq, Repr

namespace Arguments

/-- The last value of an option. -/
def value? (arguments : Arguments) (name : String) : Option String :=
  (arguments.options.reverse.lookup name).bind id

/-- Whether an option was used. -/
def has (arguments : Arguments) (name : String) : Bool :=
  arguments.options.any fun (used, _) => used == name

/-- The last of some options that was used. -/
def lastOf? (arguments : Arguments) (names : List String) : Option String :=
  (arguments.options.reverse.find? fun (used, _) => names.contains used).map (·.1)

end Arguments

/-- The option that is written in a given way. -/
def OptionTable.find? (table : OptionTable) (form : String) : Option KnownOption :=
  List.find? (fun (known : KnownOption) => known.forms.contains form) table

/-- The options in the letters behind a single hyphen, and the arguments that are left. -/
def shortOptions (table : OptionTable) :
    List Char → List String → Option (List UsedOption × List String)
  | [], rest => some ([], rest)
  | letter :: letters, rest => do
    let known ← table.find? (String.ofList ['-', letter])
    if known.takesValue then
      match letters, rest with
      | [], [] => none
      | [], value :: others => some ([(known.name, some value)], others)
      | _, _ => some ([(known.name, some (String.ofList letters))], rest)
    else
      let (others, left) ← shortOptions table letters rest
      return ((known.name, none) :: others, left)

/-- The option in a long form, and the arguments that are left. -/
def longOption (known : KnownOption) (value : Option String) (rest : List String) :
    Option (List UsedOption × List String) :=
  match known.takesValue, value, rest with
  | true, some text, _ => some ([(known.name, some text)], rest)
  | true, none, [] => none
  | true, none, text :: others => some ([(known.name, some text)], others)
  | false, some _, _ => none
  | false, none, _ => some ([(known.name, none)], rest)

/-- The parts of an argument before and behind its first equals sign. -/
def splitValue (argument : String) : String × Option String :=
  let form := argument.toList.takeWhile (· ≠ '=')
  match argument.toList.drop form.length with
  | [] => (argument, none)
  | _ :: value => (String.ofList form, some (String.ofList value))

/-- Whether an option is written in a long form. -/
def isLongForm (form : String) : Bool := ['-', '-'].isPrefixOf form.toList

/-- The options that an argument holds, and the arguments that are left. -/
def optionsOf (table : OptionTable) (argument : String) (rest : List String) :
    Option (List UsedOption × List String) :=
  let (form, value) := splitValue argument
  if isLongForm argument then do
    longOption (← table.find? form) value rest
  else shortOptions table (argument.toList.drop 1) rest

/-- Whether an argument is an option. -/
def isOption (argument : String) : Bool :=
  argument.toList.head? = some '-' && 1 < argument.length

/-- The arguments of a command. Unless options may follow a positional argument, everything from
the first one on is positional. At most `fuel` arguments are read. -/
def argumentsFrom (table : OptionTable) (interspersed : Bool) :
    Nat → List String → Option Arguments
  | _, [] => some ⟨[], []⟩
  | 0, rest => some ⟨[], rest⟩
  | fuel + 1, argument :: rest =>
    if argument = "--" then some ⟨[], rest⟩
    else if isOption argument then do
      let (used, left) ← optionsOf table argument rest
      let others ← argumentsFrom table interspersed fuel left
      return ⟨used ++ others.options, others.positional⟩
    else if interspersed then do
      let others ← argumentsFrom table interspersed fuel rest
      return ⟨others.options, argument :: others.positional⟩
    else some ⟨[], argument :: rest⟩

/-- The options and the positional arguments among some arguments. -/
def readArguments (table : OptionTable) (interspersed : Bool) (arguments : List String) :
    Option Arguments :=
  argumentsFrom table interspersed arguments.length arguments

/-- The digits of a written number, single underscores between them left out. -/
def groupedDigits? : List Char → Option (List Char)
  | [] => none
  | [digit] => if isAsciiDigit digit then some [digit] else none
  | digit :: '_' :: rest =>
    if isAsciiDigit digit then (groupedDigits? rest).map (digit :: ·) else none
  | digit :: rest =>
    if isAsciiDigit digit then (groupedDigits? rest).map (digit :: ·) else none

/-- The value of decimal digits. -/
def decimalValue (digits : List Char) : Nat :=
  digits.foldl (fun value digit => value * 10 + (digit.toNat - '0'.toNat)) 0

/-- The whole number that a text without white space around it writes, with a sign or not. -/
def wholeNumber? : List Char → Option Int
  | '-' :: rest => (groupedDigits? rest).map fun digits => -decimalValue digits
  | '+' :: rest => (groupedDigits? rest).map fun digits => decimalValue digits
  | digits => (groupedDigits? digits).map fun digits => decimalValue digits

end DocGrammar
