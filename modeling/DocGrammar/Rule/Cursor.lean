import DocGrammar.Token.Basic

/-! # Token cursors

A cursor stands on a token of a list that has at least one. The tokens before it are kept in
reverse, so that moving and coming back are cheap. A cursor never moves past the last token. -/

namespace DocGrammar

/-- A place in a list of tokens. -/
structure Cursor where
  /-- The tokens before the current one, the nearest first. -/
  before : List Token
  /-- The current token. -/
  current : Token
  /-- The tokens after the current one. -/
  after : List Token
  deriving DecidableEq, Repr

namespace Cursor

/-- The cursor on the first of some tokens, comments left out. -/
def ofTokens? (tokens : List Token) : Option Cursor :=
  match tokens.filter fun token => token.kind ≠ .comment with
  | [] => none
  | first :: others => some ⟨[], first, others⟩

/-- The number of tokens before the current one. -/
def position (cursor : Cursor) : Nat := cursor.before.length

/-- The list of tokens that the cursor moves in. -/
def tokens (cursor : Cursor) : List Token :=
  cursor.before.reverse ++ cursor.current :: cursor.after

/-- The cursor on the next token, or where it was on the last one. -/
def advance (cursor : Cursor) : Cursor :=
  match cursor.after with
  | [] => cursor
  | next :: others => ⟨cursor.current :: cursor.before, next, others⟩

/-- The token some places ahead, or the last one. -/
def peek (cursor : Cursor) (distance : Nat) : Token :=
  match distance with
  | 0 => cursor.current
  | ahead + 1 => (cursor.after[ahead]?).getD (cursor.after.getLast?.getD cursor.current)

/-- The token before the current one, or the current one if it is the first. -/
def previous (cursor : Cursor) : Token := cursor.before.head?.getD cursor.current

/-- The cursor behind a run of tokens of some kinds, at most on the last token. -/
def skipRun (kinds : List TokenKind) (before : List Token) (current : Token) :
    List Token → Cursor
  | [] => ⟨before, current, []⟩
  | next :: after =>
    if current.kind ∈ kinds then skipRun kinds (current :: before) next after
    else ⟨before, current, next :: after⟩

/-- The cursor on the first token from the current one on that is of none of some kinds. -/
def skip (cursor : Cursor) (kinds : List TokenKind) : Cursor :=
  skipRun kinds cursor.before cursor.current cursor.after

/-- Moving keeps the list of tokens. -/
@[simp] theorem tokens_advance (cursor : Cursor) : cursor.advance.tokens = cursor.tokens := by
  unfold advance
  split
  · rfl
  · next h => simp [tokens, h]

/-- Skipping keeps the list of tokens. -/
@[simp] theorem tokens_skip (cursor : Cursor) (kinds : List TokenKind) :
    (cursor.skip kinds).tokens = cursor.tokens := by
  obtain ⟨before, current, after⟩ := cursor
  simp only [skip]
  induction after generalizing before current with
  | nil => rfl
  | cons next after ih =>
    rw [skipRun]
    split
    · rw [ih]
      simp [tokens]
    · rfl

end Cursor

end DocGrammar
