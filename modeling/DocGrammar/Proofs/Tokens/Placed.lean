import DocGrammar.Proofs.Documents.Run
import DocGrammar.Proofs.Source.Positions
import DocGrammar.Proofs.Tokens.Spelled
import DocGrammar.Proofs.Trees.Stand
import Mathlib.Data.List.Chain

/-! # Where code tokens stand

Reading code yields tokens that stand, one behind the other, on the code. On a line, nothing but
white space stands between a minus sign and a number that follows it.

* **`CodeRead`** — the tokens that a stretch of code is read as.
* **`CodeRead.along`** — they stand along the code.
* **`CodeRead.isChain_signedOn`** — signs and the digits behind them. -/

namespace DocGrammar

variable {document chars own : List Char} {start : Position} {keywords : KeywordTable}
  {file : String} {state : CodeState} {tokens : List Token}

/-! ## Tokens on characters -/

/-- A token stands on characters of a document that spell it. -/
structure Token.StandsOn (document : List Char) (start : Position) (own : List Char)
    (token : Token) : Prop where
  /-- It spans them. -/
  covers : token.span.Covers start own
  /-- They spell it. -/
  spelled : Spelled token.kind token.value.toList own
  /-- The document holds them. -/
  segment : Segment document start own

/-- A code token stands on its characters if it has some of its own. -/
def CodeOn (document : List Char) (start : Position) (own : List Char) (token : Token) : Prop :=
  token.kind.isSolid = true → token.StandsOn document start own

/-- Where a number stands right behind a minus sign, nothing but white space of the line stands
between. -/
def SignedOn (document : List Char) (sign digits : Token) : Prop :=
  sign.kind = .minus → digits.kind = .numberLit → ∃ gap, '\n' ∉ gap ∧
    (∀ char ∈ gap, isBlank char = true) ∧
    Segment document sign.span.start ('-' :: (gap ++ digits.value.toList)) ∧
    digits.span.stop =
      (sign.span.start.after ('-' :: (gap ++ digits.value.toList))).before

/-! ## Reading code -/

/-- Code at a position is read as some tokens: each lexeme becomes a token, a line feed may become
one, and spaces do not. -/
inductive CodeRead (file : String) : Position → List Char → List Token → Prop
  /-- The end of the code. -/
  | finish {start : Position} : CodeRead file start [] [codeToken file start .endOfInput [] []]
  /-- A space, or a line feed behind which the line goes on. -/
  | space {start : Position} {char : Char} {chars : List Char} {tokens : List Token}
      (blank : isBlank char = true) (behind : CodeRead file (start.step char) chars tokens) :
      CodeRead file start (char :: chars) tokens
  /-- A line feed that becomes a token. -/
  | feed {start : Position} {chars : List Char} {tokens : List Token}
      (behind : CodeRead file (start.step '\n') chars tokens) :
      CodeRead file start ('\n' :: chars)
        (codeToken file start .newline ['\n'] ['\n'] :: tokens)
  /-- A lexeme. A comment takes the rest of its line. -/
  | lexeme {start : Position} {kind : TokenKind} {value own chars : List Char}
      {tokens : List Token} (spelled : Spelled kind value own)
      (ends : kind = .comment → chars ≠ [] → chars.head? = some '\n')
      (behind : CodeRead file (start.after own) chars tokens) :
      CodeRead file start (own ++ chars) (codeToken file start kind value own :: tokens)

theorem isBlank_of_isCodeSpace {char : Char} (space : isCodeSpace char = true) :
    isBlank char = true := by
  simp only [isCodeSpace, Bool.or_eq_true, decide_eq_true_eq] at space
  rcases space with (rfl | rfl) | rfl <;> decide

/-- Code that is read without a fault is read as its tokens. -/
theorem codeRead_of_codeTokensFrom (plain : keywords.isVerbatim = true)
    (reads : codeTokensFrom keywords file state chars = .ok tokens) :
    CodeRead file state.position chars tokens := by
  fun_induction codeTokensFrom keywords file state chars generalizing tokens with
  | case1 state =>
    cases reads
    exact .finish
  | case2 state char rest space ih => exact .space (isBlank_of_isCodeSpace space) (ih reads)
  | case3 state rest ends space ih =>
    obtain ⟨others, inner, whole⟩ := exists_of_bind_ok reads
    cases whole
    exact .feed (ih inner)
  | case4 state rest ends space ih => exact .space (by decide) (ih reads)
  | case5 => cases reads
  | case6 state char rest space noFeed lexeme scanned chars =>
    rename_i ih
    obtain ⟨others, inner, whole⟩ := exists_of_bind_ok reads
    cases whole
    have behind := ih inner
    obtain ⟨own, tail, rfl, extra, spelled, ends⟩ := Lexeme.spells_of_scan plain scanned
    -- the scanner counts the characters that it takes; they are those that spell the lexeme
    have taken : chars = char :: own := by
      show char :: (own ++ tail).take lexeme.extra = _
      rw [extra, List.take_left]
    rw [taken, extra, List.drop_left] at behind
    rw [taken]
    exact .lexeme spelled ends behind

/-- What is no comment is seen. -/
theorem seen_cons {token : Token} (other : token.kind ≠ .comment) (tokens : List Token) :
    WalkM.seen (token :: tokens) = token :: WalkM.seen tokens :=
  List.filter_cons_of_pos (decide_eq_true other)

namespace CodeRead

/-! ## Tokens along code -/

/-- The tokens stand along the code. -/
theorem along (read : CodeRead file start chars tokens) (segment : Segment document start chars) :
    Along (CodeOn document) start chars tokens := by
  induction read with
  | finish => exact .single nofun
  | space _ _ ih => exact .skipChar (ih segment.tail)
  -- the line feed is passed over behind its token
  | feed _ ih => exact .hollow nofun (.skipChar (ih segment.tail))
  | lexeme spelled _ _ ih =>
    refine .item (fun _ => ⟨?_, ?_, segment.left⟩) (ih segment.right)
    · exact .of_before rfl rfl segment.one_le_column spelled.exists_last
    · rw [codeToken, String.toList_ofList]
      exact spelled

/-- Every token starts behind some of the characters. -/
theorem exists_front (read : CodeRead file start chars tokens) :
    ∀ token ∈ tokens, ∃ front, front <+: chars ∧ token.span.start = start.after front := by
  induction read with
  | finish => exact List.forall_mem_singleton.mpr ⟨[], List.prefix_rfl, rfl⟩
  | @space start char chars _ _ _ ih =>
    intro token member
    obtain ⟨front, part, place⟩ := ih token member
    exact ⟨char :: front, List.cons_prefix_cons.mpr ⟨rfl, part⟩, place⟩
  | feed _ ih =>
    refine List.forall_mem_cons.mpr ⟨⟨[], List.nil_prefix, rfl⟩, ?_⟩
    intro token member
    obtain ⟨front, part, place⟩ := ih token member
    exact ⟨'\n' :: front, List.cons_prefix_cons.mpr ⟨rfl, part⟩, place⟩
  | @lexeme _ _ _ own _ _ _ _ _ ih =>
    refine List.forall_mem_cons.mpr ⟨⟨[], List.nil_prefix, rfl⟩, ?_⟩
    intro token member
    obtain ⟨front, part, place⟩ := ih token member
    refine ⟨own ++ front, (List.prefix_append_right_inj own).mpr part, ?_⟩
    rw [place, Position.after_append]

/-- The tokens that are seen stand along the code as well. -/
theorem along_seen (read : CodeRead file start chars tokens)
    (segment : Segment document start chars) :
    Along (CodeOn document) start chars (WalkM.seen tokens) :=
  (read.along segment).sublist List.filter_sublist

/-- Comments left out, the tokens end with the input. -/
theorem endsInput (read : CodeRead file start chars tokens) : EndsInput (WalkM.seen tokens) := by
  induction read with
  | finish => exact rfl
  | space _ _ ih => exact ih
  | @feed start chars tokens _ ih =>
    have inner : ∀ token ∈ [codeToken file start .newline ['\n'] ['\n']],
        token.kind ≠ .endOfInput := by
      intro token member
      rw [List.mem_singleton.mp member]
      exact TokenKind.noConfusion
    rw [seen_cons TokenKind.noConfusion]
    exact ih.append inner
  | @lexeme start kind value own chars tokens spelled _ _ ih =>
    by_cases comment : kind = .comment
    · subst comment
      exact ih
    have inner : ∀ token ∈ [codeToken file start kind value own], token.kind ≠ .endOfInput := by
      intro token member
      rw [List.mem_singleton.mp member]
      rintro same
      have same : kind = .endOfInput := same
      subst same
      -- nothing spells the end of the input
      cases spelled with
      | verbatim plain => cases plain
    rw [seen_cons comment]
    exact ih.append inner

/-- Nothing is read as the end of the code. -/
theorem eq_of_nil (read : CodeRead file start [] tokens) :
    tokens = [codeToken file start .endOfInput [] []] := by
  generalize none : [] = rest at read
  cases read with
  | finish => rfl
  | space => cases none
  | feed => cases none
  | lexeme spelled =>
    obtain ⟨front, last, rfl, _⟩ := spelled.exists_last
    simp at none

/-! ## Signs and digits -/

/-- If a number comes first, only white space stands before it. -/
def DigitsFirst (start : Position) (chars : List Char) (tokens : List Token) : Prop :=
  ∀ first ∈ tokens.head?, first.kind = .numberLit →
    ∃ gap tail, chars = gap ++ (first.value.toList ++ tail) ∧ (∀ char ∈ gap, isBlank char = true) ∧
      first.span.stop = (start.after (gap ++ first.value.toList)).before

/-- On a line, only white space stands between a minus sign and a number behind it. -/
theorem isChain_signedOn (read : CodeRead file start chars tokens) (line : '\n' ∉ chars)
    (segment : Segment document start chars) :
    (WalkM.seen tokens).IsChain (SignedOn document) ∧
      DigitsFirst start chars (WalkM.seen tokens) := by
  -- a sign is judged by what comes first behind it, so both claims go through the induction
  induction read with
  | finish => exact ⟨.singleton _, by rintro _ ⟨⟩ ⟨⟩⟩
  | @space start char chars tokens blank _ ih =>
    obtain ⟨chain, digits⟩ := ih (fun member => line (List.mem_cons_of_mem _ member)) segment.tail
    refine ⟨chain, fun first member number => ?_⟩
    obtain ⟨gap, tail, rfl, blank', stops⟩ := digits first member number
    refine ⟨char :: gap, tail, rfl, fun other inGap => ?_, stops⟩
    rcases List.mem_cons.mp inGap with rfl | behind
    · exact blank
    · exact blank' other behind
  | feed => exact absurd List.mem_cons_self line
  | @lexeme start kind value own chars tokens spelled ends behind ih =>
    have line' : '\n' ∉ chars := fun member => line (List.mem_append_right own member)
    obtain ⟨chain, digits⟩ := ih line' segment.right
    by_cases comment : kind = .comment
    · -- nothing stands behind a comment on its line
      have last : chars = [] := by
        by_contra nonempty
        exact line' (List.mem_of_mem_head? (ends comment nonempty))
      subst last comment
      rw [behind.eq_of_nil]
      exact ⟨.singleton _, by rintro _ ⟨⟩ ⟨⟩⟩
    rw [seen_cons comment]
    constructor
    · refine chain.cons fun first member minus number => ?_
      obtain ⟨gap, tail, rfl, blank, stops⟩ := digits first member number
      have minus : kind = .minus := minus
      subst minus
      cases spelled with
      | verbatim plain => cases plain
      | minus =>
        -- the gap before the digits starts right behind the sign
        rw [← List.append_assoc gap, ← List.append_assoc] at segment
        refine ⟨gap, fun member => line' ?_, blank, segment.left, stops⟩
        exact List.mem_append_left _ member
    · rintro _ ⟨⟩ number
      have number : kind = .numberLit := number
      subst number
      cases spelled with
      | verbatim plain => cases plain
      | number =>
        refine ⟨[], chars, ?_, nofun, ?_⟩
        · rw [codeToken, String.toList_ofList, List.nil_append]
        · rw [codeToken, String.toList_ofList, List.nil_append]

end CodeRead

end DocGrammar
