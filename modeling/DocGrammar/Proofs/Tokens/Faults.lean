import DocGrammar.Proofs.Source.Positions
import DocGrammar.Proofs.Tokens.Quotes

/-! # Places of lexical faults

Code that is no sequence of lexemes is refused with the place where reading went wrong. This is a
place between two characters of the code, and the cause of the refusal tells what stands behind it.
An escape of a line feed is the exception: the place is counted back from the start of the next
line.

* **`Cause.StandsBefore`** — what stands behind the place of a fault with a given cause.
* **`Lexeme.StringFault`** — why the body of a string is refused, and where.
* **`Lexeme.blames_of_scan_error`** — what a lexeme is refused for stands in its text.
* **`codeTokens_error_place`** — where code is refused. -/

namespace DocGrammar

/-! ## What faults are blamed on -/

/-- What stands in a text where a lexical fault lies: the character that starts no lexeme, the mark
of the literal that does not end, the escape that there is not, or nothing any more. -/
def Cause.StandsBefore : Cause → List Char → Prop
  | .unexpectedCharacter char, text => [char] <+: text
  | .unterminatedTripleString, text => ['"', '"', '"'] <+: text
  | .unterminatedString, text => ['"'] <+: text ∨ ['\''] <+: text
  | .unterminatedPattern, text => ['/'] <+: text
  | .unknownEscape letter, text => ['\\', letter] <+: text
  | .unfinishedEscape, text => text = []
  | _, _ => False

/-- Only lexical faults are blamed on what stands in a text. -/
theorem Cause.kind_of_standsBefore {cause : Cause} {text : List Char}
    (stands : cause.StandsBefore text) : cause.kind = .lexical := by
  cases cause with
  | unexpectedCharacter | unterminatedTripleString | unterminatedString | unfinishedEscape
  | unknownEscape | unterminatedPattern => rfl
  | _ => exact False.elim stands

/-- The place that a lexical fault is given when it lies at a position: an escape of a line feed is
two columns before the start of the line behind it. -/
def Cause.placeAt (cause : Cause) (position : Position) : Position :=
  if cause = .unknownEscape '\n' then ⟨position.line + 1, -1⟩ else position

/-- Whether a fault in a lexeme is blamed on something in its text, and given the place of that. -/
def LexFault.Blames (fault : LexFault) (chars : List Char) : Prop :=
  ∃ front back, chars = front ++ back ∧ fault.cause.StandsBefore back ∧
    ∀ start, fault.place start chars = fault.cause.placeAt (start.after front)

/-- A cause other than an escape of a line feed does not change the place. -/
theorem Cause.placeAt_of_ne {cause : Cause} (other : cause ≠ .unknownEscape '\n')
    (position : Position) : cause.placeAt position = position := if_neg other

/-- A fault at the start of a lexeme is blamed on what starts there. -/
theorem LexFault.blames_atStart {cause : Cause} {chars : List Char}
    (other : cause ≠ .unknownEscape '\n') (stands : cause.StandsBefore chars) :
    (LexFault.atStart cause).Blames chars := by
  refine ⟨[], chars, rfl, stands, fun start => ?_⟩
  rw [Position.after_nil, show (LexFault.atStart cause).cause = cause from rfl,
    Cause.placeAt_of_ne other]
  show (⟨start.line, start.column - 0⟩ : Position) = start
  rw [Int.sub_zero]

/-! ## Faults in lexemes -/

namespace Lexeme

variable {keywords : KeywordTable} {behindValue : Bool} {mark char : Char} {rest : List Char}
  {taken : Nat} {fault : LexFault}

/-- The faults of the body of a string of which some characters are taken and others are left: it
does not end on its line, a backslash ends the text, or there is no such escape. -/
inductive StringFault : Nat → List Char → LexFault → Prop
  /-- The string does not end on its line. -/
  | unterminated {taken : Nat} {rest : List Char} :
    StringFault taken rest (.atStart .unterminatedString)
  /-- A backslash stands at the end of the text. -/
  | unfinished {taken : Nat} {rest : List Char} :
    StringFault taken rest ⟨.unfinishedEscape, taken + rest.length, 0⟩
  /-- A backslash stands in front of a letter that makes no escape. -/
  | unknown {taken : Nat} (front : List Char) (letter : Char) (back : List Char) :
    StringFault taken (front ++ '\\' :: letter :: back)
      ⟨.unknownEscape letter, taken + front.length + 2, 2⟩

/-- A fault behind more characters that are taken is a fault in front of them. -/
theorem StringFault.prepend (own : List Char)
    (found : StringFault (taken + own.length) rest fault) :
    StringFault taken (own ++ rest) fault := by
  cases found with
  | unterminated => exact .unterminated
  | unfinished =>
    rw [Nat.add_assoc, ← List.length_append]
    exact .unfinished
  | unknown front letter back =>
    rw [Nat.add_assoc taken, ← List.length_append, ← List.append_assoc]
    exact .unknown (own ++ front) letter back

/-- The body of a string is refused for one of these faults. -/
theorem stringFault_of_error (refused : stringBody mark taken rest = .error fault) :
    StringFault taken rest fault := by
  fun_induction stringBody mark taken rest with
  -- by the recursion of the body: the fault is behind what was read without one
  | case1 =>
    cases refused
    exact .unterminated
  | case2 =>
    cases refused
    exact .unfinished
  | case3 taken letter others =>
    cases refused
    exact .unknown [] letter others
  | case4 taken letter others char known ih =>
    have inner := error_of_bind_ok refused fun _ same => by cases same
    exact (ih inner).prepend ['\\', letter]
  | case5 => cases refused
  | case6 =>
    cases refused
    exact .unterminated
  | case7 taken char rest noEscape differs inLine ih =>
    have inner := error_of_bind_ok refused fun _ same => by cases same
    exact (ih inner).prepend [char]

/-- A backslash at the end of a string that does not end is blamed on nothing. -/
theorem blames_unfinishedEscape (chars : List Char) :
    (⟨.unfinishedEscape, chars.length, 0⟩ : LexFault).Blames chars := by
  refine ⟨chars, [], (List.append_nil _).symm, rfl, fun start => ?_⟩
  rw [Cause.placeAt_of_ne Cause.noConfusion, LexFault.place, List.take_length]
  show (⟨(start.after chars).line, (start.after chars).column - 0⟩ : Position) = _
  rw [Int.sub_zero]

/-- An escape that there is not is blamed on its backslash, two columns before the place behind it
unless a line ends there. -/
theorem blames_unknownEscape (front back : List Char) (letter : Char) :
    (⟨.unknownEscape letter, front.length + 2, 2⟩ : LexFault).Blames
      (front ++ '\\' :: letter :: back) := by
  refine ⟨front, '\\' :: letter :: back, rfl, ⟨back, rfl⟩, fun start => ?_⟩
  have read : (front ++ '\\' :: letter :: back).take (front.length + 2) =
      front ++ ['\\', letter] := by
    rw [List.take_length_add_append]
    rfl
  have backslash : ∀ position : Position,
      position.step '\\' = ⟨position.line, position.column + 1⟩ := fun _ => rfl
  rw [LexFault.place, read, Position.after_append, Position.after_cons, Position.after_cons,
    Position.after_nil, backslash, Position.step]
  by_cases feed : letter = '\n'
  · subst feed
    rw [if_pos rfl, Cause.placeAt, if_pos rfl]
    rfl
  · rw [if_neg feed, Cause.placeAt_of_ne fun same => feed (Cause.unknownEscape.inj same)]
    have columns : (start.after front).column + 1 + 1 - (2 : Nat) = (start.after front).column := by
      omega
    exact congrArg (Position.mk _) columns

/-- What a string is refused for stands in its text. -/
theorem blames_of_string_error (isMark : mark = '"' ∨ mark = '\'')
    (refused : string mark rest = .error fault) : fault.Blames (mark :: rest) := by
  have inner := error_of_bind_ok refused fun _ => nofun
  cases stringFault_of_error inner with
  | unterminated =>
    refine LexFault.blames_atStart Cause.noConfusion ?_
    rcases isMark with rfl | rfl
    · exact .inl ⟨rest, rfl⟩
    · exact .inr ⟨rest, rfl⟩
  | unfinished =>
    rw [Nat.add_comm]
    exact blames_unfinishedEscape (mark :: rest)
  | unknown front letter back =>
    rw [Nat.add_comm 1]
    exact blames_unknownEscape (mark :: front) back letter

/-- What a lexeme is refused for stands in its text. -/
theorem blames_of_scan_error (refused : scan keywords behindValue char rest = .error fault) :
    fault.Blames (char :: rest) := by
  unfold scan at refused
  split at refused
  · cases refused
  · next others =>
    -- three quotes start a string that only three quotes end
    unfold tripleString at refused
    split at refused
    · cases refused
      exact LexFault.blames_atStart Cause.noConfusion ⟨others, rfl⟩
    · cases refused
  split at refused
  · next isMark =>
    exact blames_of_string_error (by simpa using isMark) refused
  split at refused
  · next slash =>
    obtain ⟨isSlash, _⟩ := Bool.and_eq_true_iff.mp slash
    unfold pattern at refused
    split at refused
    · cases refused
      obtain rfl : char = '/' := of_decide_eq_true isSlash
      exact LexFault.blames_atStart Cause.noConfusion ⟨rest, rfl⟩
    · cases refused
  split at refused
  · cases refused
  split at refused
  · cases refused
  unfold operator at refused
  split at refused
  · cases refused
  split at refused
  · cases refused
  · cases refused
    exact LexFault.blames_atStart Cause.noConfusion ⟨rest, rfl⟩

end Lexeme

/-! ## Faults in code -/

variable {keywords : KeywordTable} {file : String} {diagnostic : Diagnostic}

/-- Where the characters that follow a state are refused. -/
theorem codeTokensFrom_error_place {state : CodeState} {chars : List Char}
    (refused : codeTokensFrom keywords file state chars = .error diagnostic) :
    ∃ front back, chars = front ++ back ∧ diagnostic.cause.StandsBefore back ∧
      diagnostic.span =
        .point file (diagnostic.cause.placeAt (state.position.after front)) := by
  fun_induction codeTokensFrom keywords file state chars with
  -- by the recursion of the lexer: the fault is behind the layout and the lexemes before it
  | case1 => cases refused
  | case2 state char rest isSpace ih =>
    obtain ⟨front, back, rfl, stands, place⟩ := ih refused
    exact ⟨char :: front, back, rfl, stands, place⟩
  | case3 state rest ends space ih =>
    obtain ⟨front, back, rfl, stands, place⟩ := ih (error_of_bind_ok refused fun _ => nofun)
    exact ⟨'\n' :: front, back, rfl, stands, place⟩
  | case4 state rest ends space ih =>
    obtain ⟨front, back, rfl, stands, place⟩ := ih refused
    exact ⟨'\n' :: front, back, rfl, stands, place⟩
  | case5 state char rest space noFeed fault scanned =>
    cases refused
    obtain ⟨front, back, whole, stands, place⟩ := Lexeme.blames_of_scan_error scanned
    exact ⟨front, back, whole, stands, congrArg (Span.point file) (place _)⟩
  | case6 state char rest space noFeed lexeme scanned chars ih =>
    obtain ⟨front, back, behind, stands, place⟩ := ih (error_of_bind_ok refused fun _ => nofun)
    refine ⟨chars ++ front, back, ?_, stands, ?_⟩
    · rw [List.append_assoc, ← behind]
      exact congrArg (char :: ·) (List.take_append_drop _ rest).symm
    · rw [place, Position.after_append]
      rfl

/-- Code is refused for nothing but a lexical fault. -/
theorem kind_of_codeTokensFrom {state : CodeState} {chars : List Char}
    (refused : codeTokensFrom keywords file state chars = .error diagnostic) :
    diagnostic.kind = .lexical := by
  obtain ⟨_, _, _, stands, _⟩ := codeTokensFrom_error_place refused
  exact Cause.kind_of_standsBefore stands

/-- Code is refused at a place between two of its characters or behind the last one, counted from
the start with a new line behind every line feed. What stands there is what the cause tells. Only
an escape of a line feed is reported elsewhere: two columns before the start of the next line. -/
theorem codeTokens_error_place (keywords : KeywordTable) (file : String) (start : Position)
    (text : String) (diagnostic : Diagnostic)
    (refused : codeTokens keywords file start text = .error diagnostic) :
    ∃ front back, text.toList = front ++ back ∧ diagnostic.cause.StandsBefore back ∧
      diagnostic.span = .point file
        (if diagnostic.cause = .unknownEscape '\n' then ⟨(start.after front).line + 1, -1⟩
          else start.after front) :=
  codeTokensFrom_error_place refused

/-- An escape that there is not, on the second line of code that starts inside a row. -/
theorem codeTokens_error_place_escape :
    codeTokens .none "c" ⟨3, 5⟩ "a\n'b\\q'" = .error ⟨.unknownEscape 'q', .point "c" ⟨4, 3⟩⟩ ∧
    ∃ front back, "a\n'b\\q'".toList = front ++ back ∧ ['\\', 'q'] <+: back ∧
      (⟨3, 5⟩ : Position).after front = ⟨4, 3⟩ := by
  have refused : codeTokens .none "c" ⟨3, 5⟩ "a\n'b\\q'" =
      .error ⟨.unknownEscape 'q', .point "c" ⟨4, 3⟩⟩ := by decide +kernel
  obtain ⟨front, back, whole, stands, place⟩ := codeTokens_error_place _ _ _ _ _ refused
  refine ⟨refused, front, back, whole, stands, ?_⟩
  rw [if_neg (by decide)] at place
  exact (congrArg Span.start place).symm

/-- An escape of a line feed is reported at a place that code does not have. -/
theorem escapedFeed_outside :
    codeTokens .none "<input>" .origin "\"\\\n\"" =
      .error ⟨.unknownEscape '\n', .point "<input>" ⟨2, -1⟩⟩ ∧
    ∀ front, front <+: "\"\\\n\"".toList → Position.origin.after front ≠ ⟨2, -1⟩ := by
  refine ⟨by decide +kernel, fun front _ same => ?_⟩
  have counted := Position.one_le_column_after (Int.le_refl Position.origin.column) front
  rw [same] at counted
  exact absurd counted (by decide)

end DocGrammar
