import DocGrammar.Proofs.Documents.Read
import DocGrammar.Proofs.Documents.Rows

/-! # Line ends

A document may end its lines with line feeds alone or with a carriage return before each of them.
Its tokens depend on the lines without their carriage returns, and on the length of the last line,
behind which the end of the input stands. No line feed follows the last line, so that a document
with carriage returns is read exactly as the one without them.

* **`withReturns`** — the text with a carriage return before each line feed.
* **`documentTokens_congr`** — texts whose lines have the same content have the same tokens.
* **`feedLines_insertReturns`** — the lines of a text with carriage returns.
* **`lineEnds_alike`** — tokens, parse and grammar of a text do not depend on its line ends. -/

namespace DocGrammar

/-! ## Lines of the same content -/

/-- Tokens depend on the lines without their carriage returns. -/
theorem tokensOfLines_congr (file : String) {lines others : List (List Char)}
    (same : lines.map dropReturn = others.map dropReturn) (openFence : Option Nat) (number : Nat) :
    tokensOfLines file openFence number lines = tokensOfLines file openFence number others := by
  induction lines generalizing others openFence number with
  | nil =>
    obtain rfl : others = [] := by simpa using same.symm
    rfl
  | cons line lines ih =>
    cases others with
    | nil => simp at same
    | cons other others =>
      rw [List.map_cons, List.map_cons, List.cons.injEq] at same
      simp only [tokensOfLines, same.1, ih same.2]

/-- Texts have the same tokens if their lines have the same content and their last lines are equally
long. -/
theorem documentTokens_congr (file : String) {text other : String}
    (same : documentRows text.toList = documentRows other.toList)
    (last : ((feedLines text.toList).getLast?.getD []).length =
      ((feedLines other.toList).getLast?.getD []).length) :
    documentTokens file text = documentTokens file other := by
  have number : (feedLines text.toList).length = (feedLines other.toList).length := by
    simpa [documentRows] using congrArg List.length same
  simp only [documentTokens, documentEnd, tokensOfLines_congr file same, last, number]

/-- Texts name the same grammar if their lines have the same content. -/
theorem detectGrammar_congr {text other : String}
    (same : documentRows text.toList = documentRows other.toList) :
    detectGrammar text = detectGrammar other := by
  have first := congrArg List.head? same
  unfold detectGrammar
  cases lines : feedLines text.toList with
  | nil => exact absurd lines (feedLines_ne_nil _)
  | cons line more =>
    cases others : feedLines other.toList with
    | nil => exact absurd others (feedLines_ne_nil _)
    | cons next rest =>
      rw [documentRows, documentRows, lines, others] at first
      exact congrArg grammarNameOf? (Option.some.inj first)

/-! ## Carriage returns -/

/-- The characters with a carriage return before each line feed. -/
def insertReturns (chars : List Char) : List Char :=
  chars.flatMap fun char => if char = '\n' then ['\r', '\n'] else [char]

/-- The text with a carriage return before each line feed. -/
def withReturns (text : String) : String := String.ofList (insertReturns text.toList)

/-- The lines with a carriage return at the end of all but the last one. -/
def returnedLines : List (List Char) → List (List Char)
  | [] => []
  | [last] => [last]
  | line :: next :: others => (line ++ ['\r']) :: returnedLines (next :: others)

/-- Carriage returns before line feeds end the lines before them. -/
theorem feedLines_insertReturns (chars : List Char) :
    feedLines (insertReturns chars) = returnedLines (feedLines chars) := by
  induction chars with
  | nil => rfl
  | cons char chars ih =>
    obtain ⟨line, others, lines⟩ := List.exists_cons_of_ne_nil (feedLines_ne_nil chars)
    rw [lines] at ih
    rw [insertReturns, List.flatMap_cons, feedLines, lines]
    by_cases feed : char = '\n'
    · rw [if_pos feed, if_pos feed]
      show feedLines (['\r'] ++ '\n' :: insertReturns chars) = _
      rw [feedLines_append (by decide), ih]
      rfl
    · rw [if_neg feed, if_neg feed]
      show feedLines (char :: insertReturns chars) = _
      rw [feedLines, if_neg feed, ih]
      cases others <;> rfl

/-- A carriage return at the end of a line without one is no part of its content. -/
theorem dropReturn_concat (line : List Char) : dropReturn (line ++ ['\r']) = line := by
  simp [dropReturn]

theorem dropReturn_of_noReturn {line : List Char} (plain : '\r' ∉ line) :
    dropReturn line = line :=
  if_neg fun last => plain (List.mem_of_getLast? last)

theorem map_dropReturn_returnedLines {lines : List (List Char)}
    (plain : ∀ line ∈ lines, '\r' ∉ line) :
    (returnedLines lines).map dropReturn = lines.map dropReturn := by
  fun_induction returnedLines lines with
  | case1 => rfl
  | case2 last => rfl
  | case3 line next others ih =>
    obtain ⟨here, below⟩ := List.forall_mem_cons.mp plain
    rw [List.map_cons, List.map_cons, ih below, dropReturn_concat, dropReturn_of_noReturn here]

/-- The last line stays as it is. -/
theorem getLast?_returnedLines (lines : List (List Char)) :
    (returnedLines lines).getLast? = lines.getLast? := by
  fun_induction returnedLines lines with
  | case1 => rfl
  | case2 last => rfl
  | case3 line next others ih =>
    simp [List.getLast?_cons, ih]

/-- The lines of a text are made of its characters. -/
theorem mem_of_mem_feedLines {chars line : List Char} {char : Char}
    (member : line ∈ feedLines chars) (inside : char ∈ line) : char ∈ chars := by
  induction chars generalizing line with
  | nil =>
    rw [feedLines, List.mem_singleton] at member
    exact member ▸ inside
  | cons first chars ih =>
    obtain ⟨next, others, lines, longer⟩ := feedLines_cons first chars
    rw [lines] at ih
    rw [longer] at member
    by_cases feed : first = '\n'
    · rw [if_pos feed] at member
      rcases List.mem_cons.mp member with rfl | below
      · exact absurd inside List.not_mem_nil
      · exact List.mem_cons_of_mem _ (ih below inside)
    · rw [if_neg feed] at member
      rcases List.mem_cons.mp member with rfl | below
      · rcases List.mem_cons.mp inside with rfl | behind
        · exact List.mem_cons_self
        · exact List.mem_cons_of_mem _ (ih List.mem_cons_self behind)
      · exact List.mem_cons_of_mem _ (ih (List.mem_cons_of_mem _ below) inside)

/-! ## Texts with either line end -/

/-- A text without carriage returns becomes the same tokens, is parsed with the same result and
names the same grammar with a carriage return before each of its line feeds. -/
theorem lineEnds_alike (registry : Registry) (file : String) (limit : Int)
    (defaultGrammar : Option String) {text : String} (plain : '\r' ∉ text.toList) :
    documentTokens file (withReturns text) = documentTokens file text ∧
      parseDocument registry file limit defaultGrammar (withReturns text) =
        parseDocument registry file limit defaultGrammar text ∧
      detectGrammar (withReturns text) = detectGrammar text := by
  have lines : feedLines (withReturns text).toList = returnedLines (feedLines text.toList) := by
    rw [withReturns, String.toList_ofList, feedLines_insertReturns]
  have same : documentRows (withReturns text).toList = documentRows text.toList := by
    rw [documentRows, lines, map_dropReturn_returnedLines]
    · rfl
    exact fun line member inside => plain (mem_of_mem_feedLines member inside)
  have tokens : documentTokens file (withReturns text) = documentTokens file text :=
    documentTokens_congr file same (by rw [lines, getLast?_returnedLines])
  have read : readDocument file (withReturns text) = readDocument file text := by
    rw [readDocument, readDocument, tokens]
  refine ⟨tokens, ?_, detectGrammar_congr same⟩
  simp only [parseDocument, read]

/-- A directive, a heading, a quoted line and a last line without an end. -/
theorem lineEnds_alike_quoted :
    let text := "#!/grammars/specs parse\n# Feature: a\n\x60\x60\x60\nb \n\x60\x60\x60\nc"
    let returned :=
      "#!/grammars/specs parse\r\n# Feature: a\r\n\x60\x60\x60\r\nb \r\n\x60\x60\x60\r\nc"
    withReturns text = returned ∧ '\r' ∉ text.toList ∧
      documentTokens "t" returned = documentTokens "t" text ∧
      parseDocument .builtIn "t" defaultLimit none returned =
        parseDocument .builtIn "t" defaultLimit none text ∧
      detectGrammar returned = detectGrammar text := by
  intro text returned
  have returns : withReturns text = returned := by
    rw [withReturns, String.toList_ofList]
    rfl
  have plain : '\r' ∉ text.toList := by
    rw [String.toList_ofList]
    decide
  have alike := lineEnds_alike .builtIn "t" defaultLimit none plain
  rw [returns] at alike
  exact ⟨returns, plain, alike⟩

end DocGrammar
