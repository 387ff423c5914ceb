import DocGrammar.Proofs.Documents.Extent
import DocGrammar.Proofs.Text.Search

/-! # Descriptions of links

The description of a link stands behind the closing bracket, and often behind a hyphen. Its place is
found by a search that starts at the bracket. The search stops too early if the description is what
stands there from the hyphen on: then the hyphen is taken for its start.

* **`Laid`** — tokens along some characters of a row, and the visible characters between them.
* **`RepeatsHyphen`** — when a description is found too early.
* **`LinkPieces.exists_described`** — what the tokens behind a bracket leave out. -/

namespace DocGrammar

/-! ## Tokens along a row -/

/-- Some tokens of row `number` stand along the characters behind an offset of the row. The last
list holds the offsets of the visible characters that they leave out. -/
inductive Laid (number : Nat) : Nat → List Char → List Token → List Nat → Prop
  /-- Nothing more stands there. -/
  | done {offset : Nat} : Laid number offset [] [] []
  /-- White space is left out. -/
  | blank {offset : Nat} {char : Char} {chars : List Char} {tokens : List Token} {missed : List Nat}
      (white : isBlank char = true) (behind : Laid number (offset + 1) chars tokens missed) :
      Laid number offset (char :: chars) tokens missed
  /-- A visible character is left out. -/
  | missed {offset : Nat} {char : Char} {chars : List Char} {tokens : List Token}
      {missed : List Nat} (behind : Laid number (offset + 1) chars tokens missed) :
      Laid number offset (char :: chars) tokens (offset :: missed)
  /-- A token stands on characters of its own. -/
  | token {offset : Nat} {own chars : List Char} {token : Token} {tokens : List Token}
      {missed : List Nat} (filled : own ≠ []) (starts : token.span.start = ⟨number, offset + 1⟩)
      (stops : token.span.stop = ⟨number, offset + own.length⟩)
      (behind : Laid number (offset + own.length) chars tokens missed) :
      Laid number offset (own ++ chars) (token :: tokens) missed

/-- Whether a token stands on the character at an offset of its row. -/
def Token.Holds (token : Token) (offset : Nat) : Prop :=
  token.span.start.column ≤ offset + 1 ∧ (offset : Int) + 1 ≤ token.span.stop.column

namespace Laid

variable {file : String} {number offset index : Nat} {chars own gap front : List Char} {char : Char}
  {tokens : List Token} {missed : List Nat}

/-- A token may be placed at the offset where the characters start. -/
theorem place (file : String) (kind : TokenKind) (value : List Char) (filled : own ≠ [])
    (behind : Laid number (offset + own.length) chars tokens missed) :
    Laid number offset (own ++ chars)
      (tokenAt file number kind value offset own.length :: tokens) missed := by
  have positive : 1 ≤ own.length := List.length_pos_iff.mpr filled
  apply Laid.token filled ?_ ?_ behind
  · rfl
  · have stop : max ((offset : Int) + 1) (offset + own.length) = offset + own.length := by omega
    rw [tokenAt, stop]

/-- White space may be left out. -/
theorem blanks (white : ∀ char ∈ gap, isBlank char = true)
    (behind : Laid number (offset + gap.length) chars tokens missed) :
    Laid number offset (gap ++ chars) tokens missed := by
  induction gap generalizing offset with
  | nil => exact behind
  | cons char gap ih =>
    obtain ⟨here, white⟩ := List.forall_mem_cons.mp white
    apply Laid.blank here
    apply ih white
    rwa [Nat.add_assoc, Nat.add_comm 1 gap.length]

/-- White space holds no tokens. -/
theorem empty (white : ∀ char ∈ gap, isBlank char = true) : Laid number offset gap [] [] := by
  have whole : Laid number offset (gap ++ []) [] [] := blanks white .done
  rwa [List.append_nil] at whole

/-- White space may stand behind the tokens. -/
theorem append_blanks (laid : Laid number offset chars tokens missed)
    (white : ∀ char ∈ gap, isBlank char = true) :
    Laid number offset (chars ++ gap) tokens missed := by
  induction laid with
  | done => exact empty white
  | blank here _ ih => exact .blank here ih
  | missed _ ih => exact .missed ih
  | token filled starts stops _ ih =>
    rw [List.append_assoc]
    exact .token filled starts stops ih

/-- All characters may be left out. -/
theorem exists_empty (number offset : Nat) (chars : List Char) :
    ∃ missed, Laid number offset chars [] missed := by
  induction chars generalizing offset with
  | nil => exact ⟨[], .done⟩
  | cons char chars ih =>
    obtain ⟨missed, behind⟩ := ih (offset + 1)
    exact ⟨offset :: missed, .missed behind⟩

/-- The tokens stand on the characters. -/
theorem within (laid : Laid number offset chars tokens missed) : ∀ token ∈ tokens,
    token.span.start.line = number ∧ token.span.stop.line = number ∧
      (offset : Int) + 1 ≤ token.span.start.column ∧
      token.span.start.column ≤ token.span.stop.column ∧
      token.span.stop.column ≤ offset + chars.length := by
  induction laid with
  -- by the way along the characters, with the offset of what is left
  | done => exact List.forall_mem_nil _
  | blank _ _ ih =>
    intro token member
    obtain ⟨starts, stops, first, filled, last⟩ := ih token member
    rw [List.length_cons]
    exact ⟨starts, stops, by omega, filled, by omega⟩
  | missed _ ih =>
    intro token member
    obtain ⟨starts, stops, first, filled, last⟩ := ih token member
    rw [List.length_cons]
    exact ⟨starts, stops, by omega, filled, by omega⟩
  | @token offset own chars token tokens missed filled starts stops _ ih =>
    have positive : 1 ≤ own.length := List.length_pos_iff.mpr filled
    intro other member
    rw [List.length_append]
    rcases List.mem_cons.mp member with rfl | later
    · rw [starts, stops]
      dsimp only
      exact ⟨rfl, rfl, by omega, by omega, by omega⟩
    · obtain ⟨starts', stops', first, filled', last⟩ := ih other later
      exact ⟨starts', stops', by omega, filled', by omega⟩

/-- The tokens stand one behind the other. -/
theorem ordered (laid : Laid number offset chars tokens missed) :
    tokens.Pairwise fun token next => token.span.stop.column < next.span.start.column := by
  induction laid with
  | done => exact List.Pairwise.nil
  | blank _ _ ih => exact ih
  | missed _ ih => exact ih
  | token filled starts stops behind ih =>
    apply List.pairwise_cons.mpr
    constructor
    · intro next later
      have first := (behind.within next later).2.2.1
      rw [stops]
      dsimp only
      omega
    · exact ih

/-- A visible character that no token stands on is among those that are left out. -/
theorem mem_missed (laid : Laid number offset chars tokens missed)
    (found : chars[index]? = some char) (visible : isBlank char = false)
    (free : ∀ token ∈ tokens, ¬token.Holds (offset + index)) : offset + index ∈ missed := by
  induction laid generalizing index with
  | done => cases found
  | blank white _ ih =>
    cases index with
    | zero =>
      cases found
      rw [white] at visible
      cases visible
    | succ index =>
      rw [← Nat.add_assoc, Nat.add_right_comm] at free ⊢
      exact ih found free
  | missed _ ih =>
    cases index with
    | zero => exact List.mem_cons_self
    | succ index =>
      rw [← Nat.add_assoc, Nat.add_right_comm] at free ⊢
      exact List.mem_cons_of_mem _ (ih found free)
  | @token offset own chars token tokens missed filled starts stops _ ih =>
    obtain ⟨here, free⟩ := List.forall_mem_cons.mp free
    by_cases inside : index < own.length
    · -- the token stands on this character
      refine absurd ?_ here
      constructor
      · rw [starts]
        dsimp only
        omega
      · rw [stops]
        dsimp only
        omega
    · obtain ⟨rest, rfl⟩ := Nat.exists_eq_add_of_le (Nat.le_of_not_lt inside)
      rw [List.getElem?_append_right (Nat.le_add_right _ _), Nat.add_sub_cancel_left] at found
      rw [← Nat.add_assoc] at free ⊢
      exact ih found free

end Laid

/-- A token stops with the last of its characters. -/
theorem stop_tokenAt {file : String} {number offset width : Nat} {kind : TokenKind}
    {value : List Char} (positive : 1 ≤ width) :
    (tokenAt file number kind value offset width).span.stop.column = offset + width := by
  simp only [tokenAt]
  omega

/-! ## Descriptions -/

/-- Whether a description is found too early behind the bracket of a link: what stands behind the
hyphen there starts the text from the hyphen on. -/
def RepeatsHyphen (tail : List Char) : Prop :=
  ∃ rest, trim tail = '-' :: rest ∧ trim rest ≠ [] ∧ trim rest <+: '-' :: rest

/-- A description is found too early if it starts what is left of the text behind the bracket. -/
theorem repeatsHyphen_iff (tail : List Char) :
    RepeatsHyphen tail ↔ (trim tail).head? = some '-' ∧ trim (trim tail).tail ≠ [] ∧
      trim (trim tail).tail <+: trim tail := by
  unfold RepeatsHyphen
  constructor
  · rintro ⟨rest, content, filled, repeats⟩
    rw [content]
    exact ⟨rfl, filled, repeats⟩
  · rintro ⟨hyphen, filled, repeats⟩
    obtain ⟨rest, content⟩ := List.head?_eq_some_iff.mp hyphen
    rw [content] at filled repeats
    exact ⟨rest, content, filled, repeats⟩

instance (tail : List Char) : Decidable (RepeatsHyphen tail) :=
  decidable_of_iff _ (repeatsHyphen_iff tail).symm

/-- What holds of the tokens behind the bracket of a link and of the visible characters that they
leave out, where `tail` stands behind the bracket, from offset `start` on. -/
inductive Described (start : Nat) (tail : List Char) (tokens : List Token) (missed : List Nat) :
    Prop
  /-- The description is found at its place. Only the hyphen before it is left out. -/
  | found (apart : ¬RepeatsHyphen tail) (single : missed.length ≤ 1)
      (hyphen : ∀ offset ∈ missed, start ≤ offset ∧ tail[offset - start]? = some '-' ∧
        ∀ token ∈ tokens, (offset : Int) + 1 < token.span.start.column)
      (ends : ∀ token ∈ tokens, token.span.stop.column = start + (trimEnd tail).length)
  /-- The description is found at the hyphen before it, and it stops too early. -/
  | early (repeats : RepeatsHyphen tail) {gap rest : List Char} {token : Token}
      (cut : tail = gap ++ '-' :: rest) (white : ∀ char ∈ gap, isBlank char = true)
      (single : tokens = [token]) (place : token.span.start.column = start + gap.length + 1)
      (stops : token.span.stop.column < start + (trimEnd tail).length)

/-- White space may stand behind a description. -/
theorem Described.append_blanks {start : Nat} {tail gap : List Char} {tokens : List Token}
    {missed : List Nat} (described : Described start tail tokens missed)
    (white : ∀ char ∈ gap, isBlank char = true) : Described start (tail ++ gap) tokens missed := by
  have same : RepeatsHyphen (tail ++ gap) ↔ RepeatsHyphen tail := by
    unfold RepeatsHyphen
    rw [trim_append_blanks white]
  have width : trimEnd (tail ++ gap) = trimEnd tail := dropTailWhile_append_dropped white
  cases described with
  | found apart single hyphen ends =>
    apply Described.found (fun repeats => apart (same.mp repeats)) single
    · intro offset member
      obtain ⟨behind, here, before⟩ := hyphen offset member
      have inside : offset - start < tail.length := (List.getElem?_eq_some_iff.mp here).1
      exact ⟨behind, by rw [List.getElem?_append_left inside]; exact here, before⟩
    · rwa [width]
  | @early repeats before rest token cut leading single place stops =>
    have cut' : tail ++ gap = before ++ '-' :: (rest ++ gap) := by
      rw [cut, List.append_assoc]
      rfl
    exact .early (same.mpr repeats) cut' leading single place (by rwa [width])

section

variable {tail rest : List Char}

/-- What is left of a text behind a hyphen keeps its end when it is trimmed. -/
theorem rest_eq_append_trim (content : trim tail = '-' :: rest) :
    rest = rest.takeWhile isBlank ++ trim rest := by
  have filled : trim tail ≠ [] := by simp [content]
  obtain ⟨front, last, ends, visible⟩ := exists_last_of_trim filled
  rw [content] at ends
  cases front with
  | nil =>
    rw [(List.cons.inj ends).2]
    rfl
  | cons char front =>
    rw [(List.cons.inj ends).2]
    exact trim_concat front visible

/-- A trimmed piece is not found in white space. -/
theorem offsetOf?_blanks {text gap : List Char} (filled : trim text ≠ [])
    (white : ∀ char ∈ gap, isBlank char = true) (behind : List Char) :
    offsetOf? (trim text) (gap ++ behind) =
      (offsetOf? (trim text) behind).map (· + gap.length) := by
  obtain ⟨first, others, shape⟩ := List.exists_cons_of_ne_nil filled
  apply offsetOf?_skip shape
  intro member
  have visible := isBlank_of_trim_eq_cons shape
  rw [white first member] at visible
  cases visible

/-- What is left of a tail is found behind the white space at its start. -/
theorem offsetOf?_trim (filled : trim tail ≠ []) :
    offsetOf? (trim tail) tail = some (indentWidth tail) := by
  obtain ⟨blanks, _, cut⟩ := exists_trim tail
  have white : ∀ char ∈ tail.takeWhile isBlank, isBlank char = true :=
    fun char => List.mem_takeWhile_imp
  have search := offsetOf?_blanks filled white (trim tail ++ blanks)
  rw [← cut, offsetOf?_of_prefix (List.prefix_append _ blanks)] at search
  rw [search, Option.map_some, Nat.zero_add]
  rfl

/-- What stands behind a hyphen is found at the hyphen if it starts the text from there on, and else
behind the white space that follows the hyphen. -/
theorem offsetOf?_trim_rest (content : trim tail = '-' :: rest) (filled : trim rest ≠ []) :
    offsetOf? (trim rest) tail = some (if trim rest <+: '-' :: rest then indentWidth tail
      else indentWidth tail + (indentWidth rest + 1)) := by
  obtain ⟨blanks, _, cut⟩ := exists_trim tail
  have own := rest_eq_append_trim content
  have white : ∀ text : List Char, ∀ char ∈ text.takeWhile isBlank, isBlank char = true :=
    fun _ char => List.mem_takeWhile_imp
  have search := offsetOf?_blanks filled (white tail) ('-' :: (rest ++ blanks))
  rw [← List.cons_append, ← content, ← cut, content, List.cons_append, offsetOf?] at search
  -- whether the search ends at the hyphen is decided without the white space at the end
  have starts : (trim rest).isPrefixOf ('-' :: (rest ++ blanks)) = true ↔
      trim rest <+: '-' :: rest := by
    rw [List.isPrefixOf_iff_prefix, ← List.cons_append]
    constructor
    · intro here
      apply List.prefix_of_prefix_length_le here (List.prefix_append _ blanks)
      have shorter := congrArg List.length own
      rw [List.length_append] at shorter
      rw [List.length_cons]
      omega
    · exact fun here => here.trans (List.prefix_append _ blanks)
  by_cases here : trim rest <+: '-' :: rest
  · rw [if_pos (starts.mpr here), Option.map_some, Nat.zero_add] at search
    rw [search, if_pos here]
    rfl
  · have behind := offsetOf?_blanks filled (white rest) (trim rest ++ blanks)
    rw [← List.append_assoc, ← own, offsetOf?_of_prefix (List.prefix_append _ blanks)] at behind
    rw [if_neg fun prefixes => here (starts.mp prefixes), behind] at search
    rw [search, if_neg here]
    show some (0 + indentWidth rest + 1 + indentWidth tail) = _
    congr 1
    omega

end

namespace LinkPieces

variable {file : String} {number start : Nat} {pieces : LinkPieces}

/-- The token of the description of a link, if there is one. -/
def descriptionTokens (file : String) (number : Nat) (pieces : LinkPieces) : List Token :=
  if pieces.description.isEmpty then []
  else [tokenAt file number .text pieces.description pieces.descriptionOffset
    pieces.description.length]

theorem descriptionTokens_of_nil (none : pieces.description = []) :
    pieces.descriptionTokens file number = [] := by
  rw [descriptionTokens, none]
  rfl

theorem descriptionTokens_of_ne_nil (some : pieces.description ≠ []) :
    pieces.descriptionTokens file number = [tokenAt file number .text pieces.description
      pieces.descriptionOffset pieces.description.length] := by
  rw [descriptionTokens, if_neg fun none => some (List.isEmpty_iff.mp none)]

theorem kind_of_descriptionTokens :
    ∀ token ∈ pieces.descriptionTokens file number, token.kind = .text := by
  by_cases none : pieces.description = []
  · rw [descriptionTokens_of_nil none]
    exact List.forall_mem_nil _
  · rw [descriptionTokens_of_ne_nil none]
    exact List.forall_mem_singleton.mpr rfl

/-- The description of a link without a hyphen behind the bracket. -/
theorem description_plain (plain : ∀ rest, trim pieces.tail ≠ '-' :: rest) :
    pieces.description = trim pieces.tail := by
  unfold description
  split
  · next rest shape => exact absurd shape (plain rest)
  · rfl

/-- The description of a link with a hyphen behind the bracket. -/
theorem description_hyphen {rest : List Char} (content : trim pieces.tail = '-' :: rest) :
    pieces.description = trim rest := by
  unfold description
  split
  · next rest' shape =>
    rw [content] at shape
    cases shape
    rfl
  · next other => exact absurd content (other rest)

/-- Without a hyphen, all that is visible of the tail is the description. -/
theorem described_plain (plain : ∀ rest, trim pieces.tail ≠ '-' :: rest) :
    ∃ missed, Laid number (pieces.closeOffset + 1) pieces.tail
        (pieces.descriptionTokens file number) missed ∧
      Described (pieces.closeOffset + 1) pieces.tail (pieces.descriptionTokens file number)
        missed := by
  have own := description_plain plain
  have apart : ¬RepeatsHyphen pieces.tail := fun ⟨rest, shape, _⟩ => plain rest shape
  have leading : ∀ char ∈ pieces.tail.takeWhile isBlank, isBlank char = true :=
    fun char => List.mem_takeWhile_imp
  obtain ⟨blanks, white, cut⟩ := exists_trim pieces.tail
  refine ⟨[], ?_⟩
  by_cases filled : trim pieces.tail = []
  · -- nothing is visible, so there is no token
    rw [descriptionTokens_of_nil (own.trans filled)]
    constructor
    · rw [filled, List.nil_append] at cut
      rw [cut]
      exact Laid.empty (List.forall_mem_append.mpr ⟨leading, white⟩)
    · exact .found apart (Nat.zero_le _) (List.forall_mem_nil _) (List.forall_mem_nil _)
  · -- the description is found where it stands, behind the white space
    have place : pieces.descriptionOffset =
        pieces.closeOffset + 1 + (pieces.tail.takeWhile isBlank).length := by
      rw [descriptionOffset, own, offsetOf?_trim filled]
      rfl
    rw [descriptionTokens_of_ne_nil (by rwa [own]), own, place]
    constructor
    · have laid : Laid number (pieces.closeOffset + 1) _ _ _ := .blanks leading
        (.place file .text (trim pieces.tail) filled (.empty white))
      rwa [← cut] at laid
    · apply Described.found apart (Nat.zero_le _) (List.forall_mem_nil _)
      intro token member
      rw [List.mem_singleton.mp member, stop_tokenAt (List.length_pos_iff.mpr filled),
        trimEnd_eq_append_trim filled, List.length_append]
      omega

section Hyphen

variable {rest : List Char} (content : trim pieces.tail = '-' :: rest)

include content

/-- The hyphen stands behind the white space at the start. -/
theorem getElem?_hyphen : pieces.tail[indentWidth pieces.tail]? = some '-' := by
  obtain ⟨blanks, _, cut⟩ := exists_trim pieces.tail
  have here : ∀ {text front more : List Char}, text = front ++ '-' :: more →
      text[front.length]? = some '-' := by
    rintro text front more rfl
    simp
  rw [content] at cut
  exact here cut

/-- The visible part of a tail with a hyphen, and the white space around it. -/
theorem exists_tail_hyphen : ∃ blanks, (∀ char ∈ blanks, isBlank char = true) ∧
    pieces.tail = pieces.tail.takeWhile isBlank ++ '-' :: (rest ++ blanks) ∧
    (trimEnd pieces.tail).length = indentWidth pieces.tail + (rest.length + 1) := by
  have filled : trim pieces.tail ≠ [] := by
    rw [content]
    exact List.cons_ne_nil _ _
  obtain ⟨blanks, white, cut⟩ := exists_trim pieces.tail
  refine ⟨blanks, white, ?_, ?_⟩
  · rwa [content, List.cons_append] at cut
  · rw [trimEnd_eq_append_trim filled, List.length_append, content, List.length_cons]
    rfl

/-- A hyphen without a description is left out. -/
theorem described_bare (bare : trim rest = []) :
    Laid number (pieces.closeOffset + 1) pieces.tail (pieces.descriptionTokens file number)
        [pieces.closeOffset + 1 + indentWidth pieces.tail] ∧
      Described (pieces.closeOffset + 1) pieces.tail (pieces.descriptionTokens file number)
        [pieces.closeOffset + 1 + indentWidth pieces.tail] := by
  obtain ⟨blanks, white, cut, _⟩ := exists_tail_hyphen content
  -- all that stands behind the hyphen is white space
  have none : rest = rest.takeWhile isBlank := by
    have whole := rest_eq_append_trim content
    rwa [bare, List.append_nil] at whole
  have after : ∀ char ∈ rest ++ blanks, isBlank char = true := by
    intro char member
    rcases List.mem_append.mp member with inRest | behind
    · rw [none] at inRest
      exact List.mem_takeWhile_imp inRest
    · exact white char behind
  rw [descriptionTokens_of_nil ((description_hyphen content).trans bare)]
  constructor
  · have laid : Laid number (pieces.closeOffset + 1)
        (pieces.tail.takeWhile isBlank ++ '-' :: (rest ++ blanks)) [] _ :=
      .blanks (fun char => List.mem_takeWhile_imp) (.missed (.empty after))
    rwa [← cut] at laid
  · refine .found ?_ le_rfl ?_ (List.forall_mem_nil _)
    · rintro ⟨rest', shape, filled, _⟩
      rw [content] at shape
      cases shape
      exact filled bare
    · intro offset member
      rw [List.mem_singleton.mp member]
      refine ⟨Nat.le_add_right _ _, ?_, List.forall_mem_nil _⟩
      rw [Nat.add_sub_cancel_left]
      exact getElem?_hyphen content

/-- A description that does not start the text from the hyphen on is found behind the hyphen, which
is left out. -/
theorem described_behind (filled : trim rest ≠ []) (apart : ¬trim rest <+: '-' :: rest) :
    Laid number (pieces.closeOffset + 1) pieces.tail (pieces.descriptionTokens file number)
        [pieces.closeOffset + 1 + indentWidth pieces.tail] ∧
      Described (pieces.closeOffset + 1) pieces.tail (pieces.descriptionTokens file number)
        [pieces.closeOffset + 1 + indentWidth pieces.tail] := by
  obtain ⟨blanks, white, cut, width⟩ := exists_tail_hyphen content
  have own := description_hyphen content
  have behindHyphen := rest_eq_append_trim content
  have length := congrArg List.length behindHyphen
  rw [List.length_append] at length
  -- the search passes the hyphen, since the description does not start there
  have place : pieces.descriptionOffset = pieces.closeOffset + 1 + indentWidth pieces.tail + 1 +
      (rest.takeWhile isBlank).length := by
    rw [descriptionOffset, own, offsetOf?_trim_rest content filled, if_neg apart, Option.getD_some]
    show _ + (_ + ((rest.takeWhile isBlank).length + 1)) = _
    omega
  rw [descriptionTokens_of_ne_nil (by rwa [own]), own, place]
  constructor
  · have laid : Laid number (pieces.closeOffset + 1)
        (pieces.tail.takeWhile isBlank ++ '-' :: (rest.takeWhile isBlank ++ (trim rest ++ blanks)))
        _ _ :=
      .blanks (fun char => List.mem_takeWhile_imp) (.missed
        (.blanks (fun char => List.mem_takeWhile_imp)
          (.place file .text (trim rest) filled (.empty white))))
    rw [← List.append_assoc (rest.takeWhile isBlank), ← behindHyphen, ← cut] at laid
    exact laid
  · refine .found ?_ le_rfl ?_ ?_
    · rintro ⟨rest', shape, _, repeats⟩
      rw [content] at shape
      cases shape
      exact apart repeats
    · intro offset member
      rw [List.mem_singleton.mp member]
      refine ⟨Nat.le_add_right _ _, ?_, ?_⟩
      · rw [Nat.add_sub_cancel_left]
        exact getElem?_hyphen content
      · intro token described
        rw [List.mem_singleton.mp described]
        simp only [tokenAt]
        omega
    · intro token described
      rw [List.mem_singleton.mp described, stop_tokenAt (List.length_pos_iff.mpr filled), width]
      omega

/-- A description that starts the text from the hyphen on is found at the hyphen. -/
theorem described_early (filled : trim rest ≠ []) (repeats : trim rest <+: '-' :: rest) :
    ∃ missed, Laid number (pieces.closeOffset + 1) pieces.tail
        (pieces.descriptionTokens file number) missed ∧
      Described (pieces.closeOffset + 1) pieces.tail (pieces.descriptionTokens file number)
        missed := by
  obtain ⟨blanks, white, cut, width⟩ := exists_tail_hyphen content
  have own := description_hyphen content
  have length := congrArg List.length (rest_eq_append_trim content)
  rw [List.length_append] at length
  have place : pieces.descriptionOffset =
      pieces.closeOffset + 1 + (pieces.tail.takeWhile isBlank).length := by
    rw [descriptionOffset, own, offsetOf?_trim_rest content filled, if_pos repeats]
    rfl
  rw [descriptionTokens_of_ne_nil (by rwa [own]), own, place]
  -- what the description does not reach is left out, whatever it is
  obtain ⟨more, split⟩ := repeats
  obtain ⟨missed, behind⟩ := Laid.exists_empty number (pieces.closeOffset + 1 +
    (pieces.tail.takeWhile isBlank).length + (trim rest).length) (more ++ blanks)
  refine ⟨missed, ?_, ?_⟩
  · have laid : Laid number (pieces.closeOffset + 1)
        (pieces.tail.takeWhile isBlank ++ (trim rest ++ (more ++ blanks))) _ missed :=
      .blanks (fun char => List.mem_takeWhile_imp)
        (.place file .text (trim rest) filled behind)
    rw [← List.append_assoc (trim rest), split, List.cons_append, ← cut] at laid
    exact laid
  · refine .early ⟨rest, content, filled, ⟨more, split⟩⟩ cut (fun char => List.mem_takeWhile_imp)
      rfl ?_ ?_
    · simp only [tokenAt]
      omega
    · rw [stop_tokenAt (List.length_pos_iff.mpr filled), width]
      show _ < _ + (((pieces.tail.takeWhile isBlank).length + (rest.length + 1) : Nat) : Int)
      omega

end Hyphen

/-- What stands behind the bracket of a link, in any case. -/
theorem exists_described (file : String) (number : Nat) (pieces : LinkPieces) :
    ∃ missed, Laid number (pieces.closeOffset + 1) pieces.tail
        (pieces.descriptionTokens file number) missed ∧
      Described (pieces.closeOffset + 1) pieces.tail (pieces.descriptionTokens file number)
        missed := by
  by_cases plain : ∀ rest, trim pieces.tail ≠ '-' :: rest
  · exact described_plain plain
  · obtain ⟨rest, shape⟩ := not_forall.mp plain
    have content := not_ne_iff.mp shape
    by_cases bare : trim rest = []
    · exact ⟨_, described_bare content bare⟩
    · by_cases repeats : trim rest <+: '-' :: rest
      · exact described_early content bare repeats
      · exact ⟨_, described_behind content bare repeats⟩

end LinkPieces

end DocGrammar
