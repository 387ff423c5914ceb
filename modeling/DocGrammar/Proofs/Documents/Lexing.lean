import DocGrammar.Document.OfTokens
import DocGrammar.Token.Document

/-! # From a text to a document

The rows of a text become tokens one after the other, up to the first row that holds a forbidden
character. The tokens become a document in two steps: a directive is split off, and what stands
behind it is cut into sections. What each of these steps can yield is said here once.

* **`tokensOfLines_cases`** — the first of some rows is refused, or its tokens come first.
* **`exists_of_tokensOfLines_error`** — rows are refused for a character on one of them.
* **`Document.ofTokens_cases`** — tokens are refused in one of two steps, or become a document. -/

namespace DocGrammar

variable {file text : String} {number : Nat} {openFence : Option Nat} {raw row : List Char}
  {rows others : List (List Char)} {tokens rest : List Token} {diagnostic : Diagnostic}

/-! ## Rows -/

/-- What a row is refused for: a character on it. -/
theorem exists_of_forbiddenCharacter?
    (forbidden : forbiddenCharacter? file number row = some diagnostic) :
    ∃ char column, diagnostic =
      ⟨.unexpectedCharacter char, Span.point file ⟨number, column⟩⟩ := by
  unfold forbiddenCharacter? at forbidden
  split at forbidden
  · cases forbidden
  · exact ⟨_, _, (Option.some.inj forbidden).symm⟩

/-- A row that is refused is the last one to be looked at. -/
theorem tokensOfLines_of_forbidden (openFence : Option Nat) (others : List (List Char))
    (forbidden : forbiddenCharacter? file number (dropReturn raw) = some diagnostic) :
    tokensOfLines file openFence number (raw :: others) = .error diagnostic := by
  rw [tokensOfLines]
  simp only [forbidden]

/-- The tokens of any other row stand before those of the rows below it. -/
theorem tokensOfLines_of_allowed (openFence : Option Nat) (others : List (List Char))
    (allowed : forbiddenCharacter? file number (dropReturn raw) = none) :
    tokensOfLines file openFence number (raw :: others) =
      (tokensOfLines file (lineTokens file number (dropReturn raw) openFence).2 (number + 1)
        others).map ((lineTokens file number (dropReturn raw) openFence).1 ++ ·) := by
  rw [tokensOfLines]
  simp only [allowed]
  cases tokensOfLines file (lineTokens file number (dropReturn raw) openFence).2 (number + 1)
    others <;> rfl

/-- What comes of some rows, by the first of them. -/
theorem tokensOfLines_cases (file : String) (openFence : Option Nat) (number : Nat)
    (raw : List Char) (others : List (List Char)) :
    (∃ diagnostic, forbiddenCharacter? file number (dropReturn raw) = some diagnostic ∧
        tokensOfLines file openFence number (raw :: others) = .error diagnostic) ∨
      forbiddenCharacter? file number (dropReturn raw) = none ∧
        tokensOfLines file openFence number (raw :: others) =
          (tokensOfLines file (lineTokens file number (dropReturn raw) openFence).2 (number + 1)
            others).map ((lineTokens file number (dropReturn raw) openFence).1 ++ ·) := by
  cases forbidden : forbiddenCharacter? file number (dropReturn raw) with
  | some diagnostic => exact .inl ⟨diagnostic, rfl, tokensOfLines_of_forbidden _ _ forbidden⟩
  | none => exact .inr ⟨rfl, tokensOfLines_of_allowed _ _ forbidden⟩

/-- Rows that become tokens: the first is allowed, and its tokens come first. -/
theorem exists_of_tokensOfLines_cons
    (reads : tokensOfLines file openFence number (raw :: others) = .ok tokens) :
    forbiddenCharacter? file number (dropReturn raw) = none ∧ ∃ behind,
      tokensOfLines file (lineTokens file number (dropReturn raw) openFence).2 (number + 1)
        others = .ok behind ∧
      tokens = (lineTokens file number (dropReturn raw) openFence).1 ++ behind := by
  rcases tokensOfLines_cases file openFence number raw others with ⟨_, _, refused⟩ |
    ⟨allowed, mapped⟩
  · cases refused.symm.trans reads
  · rw [mapped] at reads
    cases below : tokensOfLines file (lineTokens file number (dropReturn raw) openFence).2
        (number + 1) others with
    | error diagnostic =>
      rw [below] at reads
      cases reads
    | ok behind =>
      rw [below] at reads
      cases reads
      exact ⟨allowed, behind, rfl, rfl⟩

/-- Rows that become no tokens are refused for a character on one of them. -/
theorem exists_of_tokensOfLines_error
    (refused : tokensOfLines file openFence number rows = .error diagnostic) :
    ∃ index row, rows[index]? = some row ∧
      forbiddenCharacter? file (number + index) (dropReturn row) = some diagnostic := by
  induction rows generalizing openFence number with
  | nil => cases refused
  | cons raw others ih =>
    rcases tokensOfLines_cases file openFence number raw others with ⟨_, forbidden, fails⟩ |
      ⟨_, mapped⟩
    · cases fails.symm.trans refused
      exact ⟨0, raw, rfl, forbidden⟩
    · rw [mapped] at refused
      cases below : tokensOfLines file (lineTokens file number (dropReturn raw) openFence).2
          (number + 1) others with
      | error diagnostic =>
        rw [below] at refused
        cases refused
        obtain ⟨index, row, here, forbidden⟩ := ih below
        exact ⟨index + 1, row, here, Nat.succ_add_eq_add_succ number index ▸ forbidden⟩
      | ok behind =>
        rw [below] at refused
        cases refused

/-! ## Texts -/

/-- The tokens of a text are those of its rows and one for its end. -/
theorem documentTokens_eq (file text : String) :
    documentTokens file text = (tokensOfLines file none 1 (feedLines text.toList)).map
      (· ++ [documentEnd file (feedLines text.toList)]) := by
  unfold documentTokens
  dsimp only
  cases tokensOfLines file none 1 (feedLines text.toList) <;> rfl

/-- Rows that become tokens make up a text that does. -/
theorem documentTokens_of_tokensOfLines
    (reads : tokensOfLines file none 1 (feedLines text.toList) = .ok tokens) :
    documentTokens file text = .ok (tokens ++ [documentEnd file (feedLines text.toList)]) := by
  rw [documentTokens_eq, reads]
  rfl

/-- The rows of a text, as they are read. -/
theorem exists_of_documentTokens (reads : documentTokens file text = .ok tokens) :
    ∃ behind, tokensOfLines file none 1 (feedLines text.toList) = .ok behind ∧
      tokens = behind ++ [documentEnd file (feedLines text.toList)] := by
  rw [documentTokens_eq] at reads
  cases below : tokensOfLines file none 1 (feedLines text.toList) with
  | error diagnostic =>
    rw [below] at reads
    cases reads
  | ok behind =>
    rw [below] at reads
    cases reads
    exact ⟨behind, rfl, rfl⟩

/-- A text that becomes no tokens is refused for a character on one of its rows. -/
theorem exists_of_documentTokens_error (refused : documentTokens file text = .error diagnostic) :
    ∃ index row, (feedLines text.toList)[index]? = some row ∧
      forbiddenCharacter? file (1 + index) (dropReturn row) = some diagnostic := by
  rw [documentTokens_eq] at refused
  cases below : tokensOfLines file none 1 (feedLines text.toList) with
  | error diagnostic =>
    rw [below] at refused
    cases refused
    exact exists_of_tokensOfLines_error below
  | ok behind =>
    rw [below] at refused
    cases refused

/-! ## Documents -/

namespace Document

variable {source : Document} {directive : Option Directive} {parts : List Section}

/-- Tokens whose directive is refused become no document. -/
theorem ofTokens_refused (refused : splitDirective tokens = .error diagnostic) :
    ofTokens file tokens = .error diagnostic := by
  unfold ofTokens
  rw [refused]
  rfl

/-- Nor do tokens that become no sections behind their directive. -/
theorem ofTokens_misplaced (directs : splitDirective tokens = .ok (directive, rest))
    (refused : Draft.empty.sections .prose rest = .error diagnostic) :
    ofTokens file tokens = .error diagnostic := by
  unfold ofTokens
  rw [directs]
  show (do let sections ← Draft.empty.sections .prose rest; _) = _
  rw [refused]
  rfl

/-- What any other tokens become, from what their directive and their sections are. -/
theorem ofTokens_cut (directs : splitDirective tokens = .ok (directive, rest))
    (cuts : Draft.empty.sections .prose rest = .ok parts) :
    ofTokens file tokens = .ok ⟨file, directive, dropEmptyPreamble parts,
      (tokens.getLast?.map Token.span).getD (Span.fileStart file)⟩ := by
  unfold ofTokens
  rw [directs]
  show (do let sections ← Draft.empty.sections .prose rest; _) = _
  rw [cuts]
  rfl

/-- What some tokens become. -/
theorem ofTokens_cases (file : String) (tokens : List Token) :
    (∃ diagnostic, splitDirective tokens = .error diagnostic ∧
        ofTokens file tokens = .error diagnostic) ∨
      ∃ directive rest, splitDirective tokens = .ok (directive, rest) ∧
        ((∃ diagnostic, Draft.empty.sections .prose rest = .error diagnostic ∧
            ofTokens file tokens = .error diagnostic) ∨
          ∃ parts, Draft.empty.sections .prose rest = .ok parts ∧
            ofTokens file tokens = .ok ⟨file, directive, dropEmptyPreamble parts,
              (tokens.getLast?.map Token.span).getD (Span.fileStart file)⟩) := by
  cases directs : splitDirective tokens with
  | error diagnostic => exact .inl ⟨diagnostic, rfl, ofTokens_refused directs⟩
  | ok found =>
    refine .inr ⟨found.1, found.2, rfl, ?_⟩
    cases cuts : Draft.empty.sections .prose found.2 with
    | error diagnostic => exact .inl ⟨diagnostic, rfl, ofTokens_misplaced directs cuts⟩
    | ok parts => exact .inr ⟨parts, rfl, ofTokens_cut directs cuts⟩

/-- The directive and the sections that a document was made of. -/
theorem exists_sections_of_ofTokens (made : ofTokens file tokens = .ok source) :
    source.file = file ∧ ∃ rest parts, splitDirective tokens = .ok (source.directive, rest) ∧
      Draft.empty.sections .prose rest = .ok parts ∧
      source.sections = dropEmptyPreamble parts := by
  rcases ofTokens_cases file tokens with ⟨_, _, fails⟩ |
    ⟨_, rest, directs, ⟨_, _, fails⟩ | ⟨parts, cuts, whole⟩⟩
  · cases fails.symm.trans made
  · cases fails.symm.trans made
  · cases whole.symm.trans made
    exact ⟨rfl, rest, parts, directs, cuts, rfl⟩

end Document

end DocGrammar
