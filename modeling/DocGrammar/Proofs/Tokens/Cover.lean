import DocGrammar.Proofs.Tokens.Reads
import DocGrammar.Proofs.Tokens.Spelled

/-! # Tokens cover their text

The tokens of a text, up to the end of the input, stand on slices of it, one behind the other.
Between the slices there is nothing but white space. A slice determines what its token says: it is
how the token is spelled.

* **`IsCut`** — slices that leave out only white space.
* **`Token.IsOn`** — what a token says of the slice that it stands on.
* **`codeTokens_cover`** — the tokens of a text stand on such slices.
* **`tripled_keeps_escapes`** — between triple quotes, escapes stand for themselves. -/

namespace DocGrammar

/-! ## Slices -/

/-- A slice of a text, from one offset up to another. -/
structure Slice where
  /-- The offset of the first character. -/
  first : Nat
  /-- The offset behind the last character. -/
  behind : Nat
  deriving DecidableEq, Repr

namespace Slice

/-- The characters of a slice. -/
def of (slice : Slice) (text : List Char) : List Char := (text.take slice.behind).drop slice.first

/-- Whether a slice holds the character at an offset. -/
def Holds (slice : Slice) (offset : Nat) : Prop := slice.first ≤ offset ∧ offset < slice.behind

theorem of_append (before own rest : List Char) :
    Slice.of ⟨before.length, before.length + own.length⟩ (before ++ (own ++ rest)) = own := by
  unfold of
  rw [← List.append_assoc, ← List.length_append, List.take_left, List.drop_left]

end Slice

/-- Slices behind an offset of a text: they are not empty, they stand one behind the other, and they
leave out only white space. -/
structure IsCut (text : List Char) (offset : Nat) (slices : List Slice) : Prop where
  /-- They are not empty. -/
  within : ∀ slice ∈ slices,
    offset ≤ slice.first ∧ slice.first < slice.behind ∧ slice.behind ≤ text.length
  /-- They stand one behind the other. -/
  ordered : slices.Pairwise fun slice next => slice.behind ≤ next.first
  /-- They leave out only white space. -/
  outside : ∀ place char, offset ≤ place → text[place]? = some char →
    (∀ slice ∈ slices, ¬slice.Holds place) → isCodeSpace char = true ∨ char = '\n'

namespace IsCut

variable {text : List Char} {offset : Nat} {slices : List Slice}

/-- Nothing is left out behind the end of a text. -/
theorem finish (text : List Char) : IsCut text text.length [] := by
  refine ⟨List.forall_mem_nil _, .nil, fun place char behind found => ?_⟩
  rw [List.getElem?_eq_none behind] at found
  cases found

/-- White space may be left out. -/
theorem skip {char : Char} (here : text[offset]? = some char)
    (white : isCodeSpace char = true ∨ char = '\n') (cut : IsCut text (offset + 1) slices) :
    IsCut text offset slices := by
  refine ⟨fun slice member => ?_, cut.ordered, fun place other behind found free => ?_⟩
  · obtain ⟨behind, filled⟩ := cut.within slice member
    exact ⟨Nat.le_of_succ_le behind, filled⟩
  · rcases Nat.eq_or_lt_of_le behind with rfl | further
    · rw [here] at found
      exact Option.some.inj found ▸ white
    · exact cut.outside place other further found free

/-- A slice may stand before the others. -/
theorem cons {stop : Nat} (filled : offset < stop) (inside : stop ≤ text.length)
    (cut : IsCut text stop slices) : IsCut text offset (⟨offset, stop⟩ :: slices) := by
  refine ⟨List.forall_mem_cons.mpr ⟨⟨Nat.le_refl _, filled, inside⟩, fun slice member => ?_⟩,
    List.pairwise_cons.mpr ⟨fun slice member => (cut.within slice member).1, cut.ordered⟩,
    fun place char behind found free => ?_⟩
  · obtain ⟨behind, inner⟩ := cut.within slice member
    exact ⟨Nat.le_trans (Nat.le_of_lt filled) behind, inner⟩
  · obtain ⟨here, further⟩ := List.forall_mem_cons.mp free
    refine cut.outside place char ?_ found further
    exact Nat.le_of_not_lt fun early => here ⟨behind, early⟩

end IsCut

/-! ## Tokens on slices -/

/-- A token stands on a slice of a text that begins at a position: it spans the slice, and the slice
is how it is spelled. A line end is a line feed. -/
structure Token.IsOn (token : Token) (keywords : KeywordTable) (file : String) (start : Position)
    (text : List Char) (slice : Slice) : Prop where
  /-- It lies in the file of the text. -/
  file : token.span.file = file
  /-- It starts where the slice does. -/
  starts : token.span.start = start.after (text.take slice.first)
  /-- It is a line end, or it ends at the last character of the slice, and the slice spells it. -/
  spelled : (token.kind = .newline ∧ token.value = "\n" ∧ slice.of text = ['\n']) ∨
    (token.span.stop = start.after (text.take (slice.behind - 1)) ∧
      ∃ spelling : Spelling, spelling.chars = slice.of text ∧
        spelling.kind keywords = token.kind ∧ String.ofList spelling.value = token.value ∧
        spelling.stops (text.drop slice.behind) = true)

variable {keywords : KeywordTable} {file : String} {start : Position} {state later : CodeState}
  {chars : List Char} {tokens : List Token}

/-- The characters of a lexeme do not end with a line feed. -/
theorem Spelling.exists_last (spelling : Spelling) :
    ∃ front last, spelling.chars = front ++ [last] ∧ last ≠ '\n' := by
  have spelled : Spelled (spelling.kind []) spelling.value spelling.chars := spelling.spelled rfl
  exact spelled.exists_last

/-- A line feed that ends a line stands on itself. -/
theorem isOn_feed (keywords : KeywordTable) (file : String) (start : Position)
    (before rest : List Char) :
    (codeToken file (start.after before) .newline ['\n'] ['\n']).IsOn keywords file start
      (before ++ '\n' :: rest) ⟨before.length, before.length + 1⟩ := by
  refine ⟨rfl, ?_, .inl ⟨rfl, rfl, Slice.of_append before ['\n'] rest⟩⟩
  rw [List.take_left]
  rfl

/-- A lexeme stands on the characters that it is spelled with. -/
theorem isOn_lexeme (keywords : KeywordTable) (file : String) (counted : 1 ≤ start.column)
    (before : List Char) (spelling : Spelling) {rest : List Char}
    (stops : spelling.stops rest = true) :
    (codeToken file (start.after before) (spelling.kind keywords) spelling.value
      spelling.chars).IsOn keywords file start (before ++ (spelling.chars ++ rest))
        ⟨before.length, before.length + spelling.chars.length⟩ := by
  refine ⟨rfl, ?_, .inr ⟨?_, spelling, (Slice.of_append before _ rest).symm, rfl, rfl, ?_⟩⟩
  · rw [List.take_left]
    rfl
  · obtain ⟨front, last, same, noFeed⟩ := spelling.exists_last
    have stop : ((start.after before).after spelling.chars).before =
        start.after (before ++ front) := by
      rw [← Position.after_append, same, ← List.append_assoc]
      exact Position.before_after counted _ noFeed
    -- the token ends on its last character, which is no line feed
    have upTo : before.length + spelling.chars.length - 1 = (before ++ front).length := by
      rw [same, List.length_append, List.length_append, List.length_singleton]
      omega
    refine stop.trans ?_
    rw [upTo, same, List.append_assoc front, ← List.append_assoc before, List.take_left]
  · rw [← List.append_assoc, ← List.length_append, List.drop_left]
    exact stops

/-- What is read behind some text stands on slices behind it. -/
theorem Reads.exists_cut (reads : Reads keywords file state chars tokens later [])
    (counted : 1 ≤ start.column) {text : List Char} (before : List Char)
    (whole : text = before ++ chars) (place : state.position = start.after before) :
    ∃ slices, IsCut text before.length slices ∧
      List.Forall₂ (fun token slice => token.IsOn keywords file start text slice)
        tokens slices := by
  -- every step is taken behind the text that is read before it, so that text grows on the way
  generalize none : [] = rest at reads
  induction reads generalizing before with
  | done =>
    subst none whole
    rw [List.append_nil]
    exact ⟨[], .finish before, .nil⟩
  | @space state later next chars rest tokens isSpace _ ih =>
    obtain ⟨slices, cut, on⟩ := ih (before ++ [next]) (by rw [whole, List.append_assoc]; rfl)
      (by rw [Position.after_append, ← place]; rfl) none
    rw [List.length_append] at cut
    exact ⟨slices, .skip (by simp [whole]) (.inl isSpace) cut, on⟩
  | @goOn state later chars rest tokens goesOn _ ih =>
    obtain ⟨slices, cut, on⟩ := ih (before ++ ['\n']) (by rw [whole, List.append_assoc]; rfl)
      (by rw [Position.after_append, ← place]; rfl) none
    rw [List.length_append] at cut
    exact ⟨slices, .skip (by simp [whole]) (.inr rfl) cut, on⟩
  | @feed state later chars rest tokens ends _ ih =>
    obtain ⟨slices, cut, on⟩ := ih (before ++ ['\n']) (by rw [whole, List.append_assoc]; rfl)
      (by rw [Position.after_append, ← place]; rfl) none
    rw [List.length_append] at cut
    refine ⟨_ :: slices, .cons (Nat.lt_succ_self _) (by simp [whole]) cut, .cons ?_ on⟩
    rw [place, whole]
    exact isOn_feed keywords file start before chars
  | @lexeme state later spelling chars rest tokens fits stops _ ih =>
    obtain ⟨slices, cut, on⟩ := ih (before ++ spelling.chars) (by rw [whole, List.append_assoc])
      (by rw [Position.after_append, ← place]; rfl) none
    rw [List.length_append] at cut
    have filled := List.length_pos_of_ne_nil spelling.chars_ne_nil
    refine ⟨_ :: slices, .cons (Nat.lt_add_of_pos_right filled) (by simp [whole]) cut,
      .cons ?_ on⟩
    rw [place, whole]
    exact isOn_lexeme keywords file counted before spelling stops

/-- The tokens of a text, up to the end of the input, stand on slices of the text, one behind the
other, and the slices leave out only white space. The end of the input stands behind the last
character, and it is the only one unless a word is reserved for it. -/
theorem codeTokens_cover (keywords : KeywordTable) (file : String) (start : Position)
    (counted : 1 ≤ start.column) (text : String) {tokens : List Token}
    (lexed : codeTokens keywords file start text = .ok tokens) :
    ∃ own slices,
      tokens = own ++ [codeToken file (start.after text.toList) .endOfInput [] []] ∧
      IsCut text.toList 0 slices ∧
      List.Forall₂ (fun token slice => token.IsOn keywords file start text.toList slice)
        own slices ∧
      ((∀ word, keywords.kindOf word ≠ .endOfInput) →
        ∀ token ∈ own, token.kind ≠ .endOfInput) := by
  obtain ⟨own, later, reads, rfl⟩ := exists_reads lexed
  obtain ⟨slices, cut, on⟩ := reads.exists_cut counted [] rfl rfl
  refine ⟨own, slices, ?_, cut, on, reads.kind_ne_endOfInput⟩
  rw [reads.position_eq]
  rfl

/-- A string, a line end, a pattern and a comment, which stand on slices. -/
theorem codeTokens_cover_lines : ∃ tokens own slices,
    codeTokens .none "c" ⟨3, 5⟩ "'a'\n/b/ // c" = .ok tokens ∧
    tokens.map (fun token => (token.kind, token.value)) =
      [(.stringLit, "a"), (.newline, "\n"), (.patternLit, "b"), (.comment, "c"),
        (.endOfInput, "")] ∧
    tokens = own ++ [codeToken "c" ⟨4, 9⟩ .endOfInput [] []] ∧
    IsCut "'a'\n/b/ // c".toList 0 slices ∧
    List.Forall₂ (fun token slice => token.IsOn .none "c" ⟨3, 5⟩ "'a'\n/b/ // c".toList slice)
      own slices ∧
    ∀ token ∈ own, token.kind ≠ .endOfInput := by
  have said : (codeTokens .none "c" ⟨3, 5⟩ "'a'\n/b/ // c").map
      (List.map fun token => (token.kind, token.value)) =
      .ok [(.stringLit, "a"), (.newline, "\n"), (.patternLit, "b"), (.comment, "c"),
        (.endOfInput, "")] := by decide +kernel
  cases lexed : codeTokens .none "c" ⟨3, 5⟩ "'a'\n/b/ // c" with
  | error =>
    rw [lexed] at said
    cases said
  | ok tokens =>
    rw [lexed] at said
    obtain ⟨own, slices, whole, cut, on, single⟩ :=
      codeTokens_cover .none "c" ⟨3, 5⟩ (by decide) _ lexed
    exact ⟨tokens, own, slices, rfl, Except.ok.inj said, whole, cut, on,
      single fun _ => TokenKind.noConfusion⟩

/-- Between triple quotes, a backslash and a letter stand for themselves, although they say one
character between the marks of other strings. -/
theorem tripled_keeps_escapes :
    (codeTokens .none "<input>" .origin "\"\"\"a\\nb\"\"\"").map
        (List.map fun token => (token.kind, token.value)) =
      .ok [(.stringLit, "a\\nb"), (.endOfInput, "")] ∧
    Unescapes '"' "a\\nb".toList "a\nb".toList ∧ "a\\nb" ≠ "a\nb" := by
  refine ⟨by decide +kernel, ?_, by decide⟩
  have letter : ∀ {char : Char} {body content : List Char}, char ≠ '\\' → char ≠ '"' →
      char ≠ '\n' → Unescapes '"' body content → Unescapes '"' (char :: body) (char :: content) :=
    .plain
  exact letter (by decide) (by decide) (by decide)
    (.escape rfl (letter (by decide) (by decide) (by decide) .nil))

end DocGrammar
