import DocGrammar.Proofs.Documents.Described

/-! # Tokens cover their rows

The tokens of a row stand on it, one behind the other, and leave out only white space and the hyphen
before the description of a link. The exception is a description that is found too early.

* **`RowLaid`** — what the tokens of a row leave out.
* **`CoversRow`** — that they leave out no more than they may.
* **`tokens_cover_rows`** — the tokens of every row of a text. -/

namespace DocGrammar

/-! ## Rows -/

/-- Only a row of white space is blank. -/
theorem LineShape.ofLine_ne_blank {row : List Char} (isFirst : Bool)
    (visible : row.all isBlank = false) : LineShape.ofLine isFirst row ≠ .blank := by
  unfold LineShape.ofLine
  rw [visible, if_neg Bool.false_ne_true]
  split
  · exact LineShape.noConfusion
  split
  · split <;> exact LineShape.noConfusion
  · split <;> exact LineShape.noConfusion

/-- The tokens of a row besides its end. -/
def withoutEnds (tokens : List Token) : List Token :=
  tokens.filter fun token => token.kind ≠ .newline && token.kind ≠ .endOfInput

/-- Tokens of a row of the given number that leave out no more than they may. -/
inductive RowLaid (number : Nat) (row : List Char) (own : List Token) : Prop
  /-- They are not those of a link, and they leave out only white space. -/
  | whole (laid : Laid number 0 row own []) (unlinked : ∀ token ∈ own, token.kind ≠ .linkClose)
  /-- They are those of a link. -/
  | link {front described : List Token} {close : Token} {head tail : List Char} {missed : List Nat}
      (cut : row = head ++ ']' :: tail) (tokens : own = front ++ close :: described)
      (unlinked : ∀ token ∈ front ++ described, token.kind ≠ .linkClose)
      (closes : close.kind = .linkClose) (place : close.span.stop.column = head.length + 1)
      (laid : Laid number 0 row own missed)
      (description : Described (head.length + 1) tail described missed)

namespace RowLaid

variable {file : String} {number : Nat} {row gap : List Char} {own : List Token}

/-- White space may stand behind the row. -/
theorem append_blanks (laid : RowLaid number row own) (white : ∀ char ∈ gap, isBlank char = true) :
    RowLaid number (row ++ gap) own := by
  cases laid with
  | whole laid unlinked => exact .whole (laid.append_blanks white) unlinked
  | @link front described close head tail missed cut tokens unlinked closes place laid
      description =>
    have cut' : row ++ gap = head ++ ']' :: (tail ++ gap) := by
      rw [cut, List.append_assoc]
      rfl
    exact .link cut' tokens unlinked closes place (laid.append_blanks white)
      (description.append_blanks white)

/-- A single token on what is left of a row when it is trimmed. -/
theorem trimmed (visible : row.all isBlank = false) (kind : TokenKind) (value : List Char)
    (other : kind ≠ .linkClose) :
    RowLaid number row [tokenAt file number kind value (indentWidth row) (trim row).length] := by
  obtain ⟨blanks, white, cut⟩ := exists_trim row
  have laid : Laid number 0 (row.takeWhile isBlank ++ (trim row ++ blanks))
      [tokenAt file number kind value (0 + (row.takeWhile isBlank).length) (trim row).length] [] :=
    .blanks (fun char => List.mem_takeWhile_imp) (.place file kind value (trim_ne_nil visible)
      (.empty white))
  rw [← cut, Nat.zero_add] at laid
  exact .whole laid (List.forall_mem_singleton.mpr other)

/-- A single token at the start of a row. -/
theorem leading {front blanks : List Char} (cut : row = front ++ blanks) (filled : front ≠ [])
    (white : ∀ char ∈ blanks, isBlank char = true) (kind : TokenKind) (value : List Char)
    (other : kind ≠ .linkClose) :
    RowLaid number row [tokenAt file number kind value 0 front.length] := by
  rw [cut]
  exact .whole (.place file kind value filled (.empty white)) (List.forall_mem_singleton.mpr other)

/-- The tokens of a link stand one behind the other, if those of its description do. -/
theorem laid_linkTokens {pieces : LinkPieces} (shaped : linkPieces? row = some pieces)
    {missed : List Nat} (laid : Laid number (pieces.closeOffset + 1) pieces.tail
      (pieces.descriptionTokens file number) missed) :
    Laid number 0 row (linkTokens file number pieces) missed := by
  obtain ⟨indent, gap, cut, width, width', nonempty, white, white'⟩ := exists_of_linkPieces? shaped
  have opening : pieces.openOffset = 0 + indent.length + 1 + gap.length := by
    rw [LinkPieces.openOffset, width, width', Nat.zero_add]
  rw [LinkPieces.closeOffset, opening] at laid
  have single : ∀ char : Char, [char] ≠ [] := fun char => List.cons_ne_nil char []
  -- the row from left to right: blanks, and symbols that a token copies
  have whole : Laid number 0
      (indent ++ (['-'] ++ (gap ++ (['['] ++ (pieces.target ++ ([']'] ++ pieces.tail))))))
      (tokenAt file number .listBullet ['-'] (0 + indent.length) 1 ::
        tokenAt file number .linkOpen ['['] (0 + indent.length + 1 + gap.length) 1 ::
        tokenAt file number .text (trim pieces.target)
          (0 + indent.length + 1 + gap.length + 1) pieces.target.length ::
        tokenAt file number .linkClose [']']
          (0 + indent.length + 1 + gap.length + 1 + pieces.target.length) 1 ::
        pieces.descriptionTokens file number) missed := by
    apply Laid.blanks white
    apply Laid.place file .listBullet ['-'] (single '-')
    apply Laid.blanks white'
    apply Laid.place file .linkOpen ['['] (single '[')
    apply Laid.place file .text (trim pieces.target) nonempty
    apply Laid.place file .linkClose [']'] (single ']')
    exact laid
  rw [← opening, Nat.zero_add, width, ← LinkPieces.closeOffset] at whole
  rw [cut]
  exact whole

/-- The tokens of a link. -/
theorem ofLink {pieces : LinkPieces} (shaped : linkPieces? row = some pieces) :
    RowLaid number row (linkTokens file number pieces) := by
  obtain ⟨indent, gap, cut, width, width', _, _, _⟩ := exists_of_linkPieces? shaped
  obtain ⟨missed, laid, described⟩ := pieces.exists_described file number
  have tokens : linkTokens file number pieces =
      [tokenAt file number .listBullet ['-'] pieces.indent 1,
        tokenAt file number .linkOpen ['['] pieces.openOffset 1,
        tokenAt file number .text (trim pieces.target) (pieces.openOffset + 1)
          pieces.target.length] ++
        tokenAt file number .linkClose [']'] pieces.closeOffset 1 ::
        pieces.descriptionTokens file number := rfl
  -- the closing bracket stands behind what was cut off before it
  have head : (indent ++ '-' :: (gap ++ '[' :: pieces.target)).length = pieces.closeOffset := by
    rw [LinkPieces.closeOffset, LinkPieces.openOffset, ← width, ← width']
    simp only [List.length_append, List.length_cons]
    omega
  have split : row = (indent ++ '-' :: (gap ++ '[' :: pieces.target)) ++ ']' :: pieces.tail := by
    rw [cut]
    simp
  refine .link split tokens ?_ rfl ?_ (laid_linkTokens shaped laid) ?_
  · intro token member
    rcases List.mem_append.mp member with inFront | described
    · simp only [List.mem_cons, List.not_mem_nil, or_false] at inFront
      rcases inFront with rfl | rfl | rfl
      all_goals exact TokenKind.noConfusion
    · rw [LinkPieces.kind_of_descriptionTokens token described]
      exact TokenKind.noConfusion
  · rw [stop_tokenAt le_rfl, head]
    rfl
  · rw [head]
    exact described

/-- The tokens of a heading. -/
theorem ofHeading {pieces : HeadingPieces} (shaped : headingPieces? row = some pieces) :
    RowLaid number row
      [tokenAt file number .headingMarker (row.take pieces.level) 0 pieces.level,
        tokenAt file number .text pieces.title (pieces.level + pieces.gap)
          pieces.title.length] := by
  obtain ⟨marker, gap, tail, cut, width, width', positive, filled, white, white'⟩ :=
    exists_of_headingPieces? shaped
  have signs : marker ≠ [] := by
    rintro rfl
    rw [← width] at positive
    exact absurd positive (by decide)
  have laid : Laid number 0 (marker ++ (gap ++ (pieces.title ++ tail)))
      [tokenAt file number .headingMarker (row.take pieces.level) 0 marker.length,
        tokenAt file number .text pieces.title (0 + marker.length + gap.length)
          pieces.title.length] [] :=
    .place _ _ _ signs (.blanks white (.place _ _ _ filled (.empty white')))
  rw [width, width', Nat.zero_add, ← cut] at laid
  apply RowLaid.whole laid
  simp [tokenAt]

/-- The token of an opening fence. -/
theorem ofFence {pieces : FencePieces} (shaped : fencePieces? row = some pieces) :
    RowLaid number row [tokenAt file number .fenceMarker pieces.info pieces.indent
      ((trimEnd row).length - pieces.indent)] := by
  obtain ⟨indent, own, tail, cut, width, filled, length, white, white'⟩ :=
    exists_of_fencePieces? shaped
  have laid : Laid number 0 (indent ++ (own ++ tail))
      [tokenAt file number .fenceMarker pieces.info (0 + indent.length) own.length] [] :=
    .blanks white (.place _ _ _ filled (.empty white'))
  rw [width, length, Nat.zero_add, ← cut] at laid
  apply RowLaid.whole laid
  simp [tokenAt]

/-- The end of a row is no token of a link. -/
theorem withoutEnds_link (pieces : LinkPieces) :
    withoutEnds (shapeTokens file number row (.link pieces)) = linkTokens file number pieces := by
  unfold withoutEnds shapeTokens linkTokens
  by_cases bare : pieces.description.isEmpty = true
  · simp [bare, tokenAt, lineEndToken]
  · simp [bare, tokenAt, lineEndToken]

/-- The tokens of a row outside fenced blocks. -/
theorem ofShape (isFirst : Bool) (visible : row.all isBlank = false) :
    RowLaid number row
      (withoutEnds (shapeTokens file number row (LineShape.ofLine isFirst row))) := by
  have fits := LineShape.fits_ofLine isFirst row
  have filled : row ≠ [] := by
    rintro rfl
    cases visible
  cases shape : LineShape.ofLine isFirst row with
  | blank => exact absurd shape (LineShape.ofLine_ne_blank isFirst visible)
  | shebang =>
    exact leading (List.append_nil row).symm filled (List.forall_mem_nil _) .shebang row (by decide)
  | heading pieces =>
    rw [shape] at fits
    exact ofHeading fits
  | comment =>
    obtain ⟨blanks, cut, white⟩ := dropTailWhile_append isBlank row
    -- a visible row keeps its first characters when its end is trimmed
    have kept : trimEnd row ≠ [] := by
      rw [trimEnd_eq_append_trim (trim_ne_nil visible)]
      simp [trim_ne_nil visible]
    exact leading cut kept white .comment (trimEnd row) (by decide)
  | fence pieces =>
    rw [shape] at fits
    exact ofFence fits
  | link pieces =>
    rw [shape] at fits
    rw [withoutEnds_link]
    exact ofLink fits
  | plain => exact trimmed visible .line (trim row) (by decide)

/-- The tokens of any row. -/
theorem ofLine (visible : row.all isBlank = false) (openFence : Option Nat) :
    RowLaid number row (withoutEnds (lineTokens file number row openFence).1) := by
  cases openFence with
  | none => exact ofShape _ visible
  | some ticks =>
    rw [lineTokens]
    split
    · exact trimmed visible .fenceMarker [] (by decide)
    · have filled : row ≠ [] := by
        rintro rfl
        cases visible
      exact leading (List.append_nil row).symm filled (List.forall_mem_nil _) .codeLine row
        (by decide)

end RowLaid

/-! ## What tokens of rows cover -/

/-- Whether a token stands on some of the characters of a row of the given number. -/
structure Token.IsInside (token : Token) (number : Nat) (row : List Char) : Prop where
  /-- It starts on the row. -/
  starts : token.span.start.line = number
  /-- It stops on the row. -/
  stops : token.span.stop.line = number
  /-- It starts with one of the characters. -/
  first : 1 ≤ token.span.start.column
  /-- It does not stop before it starts. -/
  filled : token.span.start.column ≤ token.span.stop.column
  /-- It stops with one of the characters. -/
  last : token.span.stop.column ≤ row.length

/-- Whether the description behind the bracket of a link is found too early on a row. -/
def FindsEarly (row : List Char) (own : List Token) : Prop :=
  ∃ close ∈ own, close.kind = .linkClose ∧ RepeatsHyphen (row.drop close.span.stop.column.toNat)

instance (row : List Char) (own : List Token) : Decidable (FindsEarly row own) :=
  inferInstanceAs (Decidable (∃ close ∈ own, close.kind = .linkClose ∧
    RepeatsHyphen (row.drop close.span.stop.column.toNat)))

/-- Whether the tokens of a row leave out no more than a hyphen before the description of a link,
and this description, which stands behind the closing bracket, ends the visible part of the row. -/
structure CoversRow (row : List Char) (own : List Token) : Prop where
  /-- At most one visible character is left out, the hyphen. -/
  outside : ∃ hyphen : Nat, ∀ index char, row[index]? = some char → isBlank char = false →
    (∀ token ∈ own, ¬token.Holds index) → index = hyphen ∧ char = '-' ∧
      ∃ close ∈ own, close.kind = .linkClose ∧ close.span.stop.column < index + 1 ∧
        ∀ token ∈ own, close.span.stop.column < token.span.start.column →
          (index : Int) + 1 < token.span.start.column
  /-- The description ends with the last visible character. -/
  ends : ∀ close ∈ own, close.kind = .linkClose → ∀ token ∈ own,
    close.span.stop.column < token.span.start.column →
      token.span.stop.column = (trimEnd row).length

namespace RowLaid

variable {number : Nat} {row : List Char} {own : List Token}

/-- The tokens stand along the row. -/
theorem exists_laid (laid : RowLaid number row own) : ∃ missed, Laid number 0 row own missed := by
  cases laid with
  | whole laid _ => exact ⟨[], laid⟩
  | link _ _ _ _ _ laid _ => exact ⟨_, laid⟩

/-- The tokens stand on the row. -/
theorem isInside (laid : RowLaid number row own) : ∀ token ∈ own, token.IsInside number row := by
  obtain ⟨missed, laid⟩ := laid.exists_laid
  intro token member
  obtain ⟨starts, stops, first, filled, last⟩ := laid.within token member
  exact ⟨starts, stops, by omega, filled, by omega⟩

section Link

variable {front described : List Token} {close token : Token} {head tail : List Char}
  {missed : List Nat}

/-- A token that closes a bracket is the one between the others. -/
theorem eq_close (unlinked : ∀ token ∈ front ++ described, token.kind ≠ .linkClose)
    (member : token ∈ front ++ close :: described) (closes : token.kind = .linkClose) :
    token = close := by
  by_contra other
  apply unlinked token ?_ closes
  rcases List.mem_append.mp member with before | behind
  · exact List.mem_append_left _ before
  · exact List.mem_append_right _ ((List.mem_cons.mp behind).resolve_left other)

/-- The tokens to the right of the closing bracket are those behind it. -/
theorem mem_described_iff (laid : Laid number 0 row (front ++ close :: described) missed)
    (member : token ∈ front ++ close :: described) :
    close.span.stop.column < token.span.start.column ↔ token ∈ described := by
  obtain ⟨_, ordered, across⟩ := List.pairwise_append.mp laid.ordered
  have filled := fun token member => (laid.within token member).2.2.2.1
  have closing : close ∈ front ++ close :: described :=
    List.mem_append_right _ List.mem_cons_self
  constructor
  · intro right
    rcases List.mem_append.mp member with before | behind
    · have apart := across token before close List.mem_cons_self
      have width := filled token member
      have width' := filled close closing
      omega
    · rcases List.mem_cons.mp behind with rfl | later
      · have width := filled token member
        omega
      · exact later
  · intro behind
    exact (List.pairwise_cons.mp ordered).1 token behind

/-- What stands behind the closing bracket, and how far the visible part of the row reaches. -/
theorem behind_close (cut : row = head ++ ']' :: tail)
    (place : close.span.stop.column = head.length + 1) :
    row.drop close.span.stop.column.toNat = tail ∧
      (trimEnd row).length = head.length + 1 + (trimEnd tail).length := by
  constructor
  · have width : close.span.stop.column.toNat = (head ++ [']']).length := by
      rw [place, List.length_append, List.length_singleton]
      omega
    have cut' : row = (head ++ [']']) ++ tail := by
      rw [cut]
      simp
    rw [width, cut', List.drop_left]
  · rw [cut, trimEnd, dropTailWhile_append_cons _ (by decide), List.length_append,
      List.length_cons, trimEnd]
    omega

end Link

/-- The tokens of a row leave out no more than they may, unless a description is found too early. -/
theorem covers (laid : RowLaid number row own) (sound : ¬FindsEarly row own) :
    CoversRow row own := by
  cases laid with
  | whole laid unlinked =>
    constructor
    · refine ⟨0, fun index char found visible free => ?_⟩
      have member := laid.mem_missed found visible (by simpa using free)
      exact absurd member List.not_mem_nil
    · exact fun close member closes => absurd closes (unlinked close member)
  | @link front described close head tail missed cut tokens unlinked closes place laid
      description =>
    subst tokens
    have closing : close ∈ front ++ close :: described :=
      List.mem_append_right _ List.mem_cons_self
    obtain ⟨behind, width⟩ := behind_close cut place
    cases description with
    | early repeats => exact absurd ⟨close, closing, closes, behind ▸ repeats⟩ sound
    | found apart single hyphen ends =>
      constructor
      · refine ⟨missed.headD 0, fun index char found visible free => ?_⟩
        have member := laid.mem_missed found visible (by simpa using free)
        rw [Nat.zero_add] at member
        obtain ⟨later, here, before⟩ := hyphen index member
        refine ⟨?_, ?_, close, closing, closes, by omega, fun token member' right => ?_⟩
        · -- nothing else is left out
          cases missed with
          | nil => exact absurd member List.not_mem_nil
          | cons first others =>
            rw [List.length_cons] at single
            have alone : others = [] := List.eq_nil_of_length_eq_zero (by omega)
            rw [alone, List.mem_singleton] at member
            exact member
        · have same : row[index]? = tail[index - (head.length + 1)]? := by
            rw [cut, List.getElem?_append_right (by omega), List.getElem?_cons, if_neg (by omega),
              Nat.sub_sub]
          rw [same, here] at found
          exact (Option.some.inj found).symm
        · exact before token ((mem_described_iff laid member').mp right)
      · intro other member closes' token member' right
        rw [eq_close unlinked member closes'] at right
        rw [ends token ((mem_described_iff laid member').mp right), width]
        rfl

/-- A description that is found too early does not reach the last visible character. -/
theorem stops_early (laid : RowLaid number row own) (early : FindsEarly row own) :
    ∃ close ∈ own, close.kind = .linkClose ∧ ∃ token ∈ own,
      close.span.stop.column < token.span.start.column ∧
      token.span.stop.column < (trimEnd row).length := by
  obtain ⟨other, member, closes', repeats⟩ := early
  cases laid with
  | whole laid unlinked => exact absurd closes' (unlinked other member)
  | @link front described close head tail missed cut tokens unlinked closes place laid
      description =>
    subst tokens
    obtain ⟨behind, width⟩ := behind_close cut place
    rw [eq_close unlinked member closes', behind] at repeats
    -- a row has one closing bracket, so the token that repeats is the one behind it
    cases description with
    | found apart => exact absurd repeats apart
    | @early _ gap rest token _ _ single _ stops =>
      subst single
      have last : token ∈ front ++ [close, token] := by simp
      refine ⟨close, by simp, closes, token, last, ?_, ?_⟩
      · exact (mem_described_iff laid last).mpr List.mem_cons_self
      · rw [width]
        exact stops

end RowLaid

/-! ## Rows of a text -/

/-- The tokens that start on a line. -/
def onLine (number : Nat) (tokens : List Token) : List Token :=
  tokens.filter fun token => token.line = number

theorem onLine_append (number : Nat) (tokens others : List Token) :
    onLine number (tokens ++ others) = onLine number tokens ++ onLine number others :=
  List.filter_append ..

/-- The tokens of a row start on its line. -/
theorem Stretch.onLine_eq_self {number : Nat} {tokens : List Token}
    (stretch : Stretch number (number + 1) tokens) : onLine number tokens = tokens := by
  apply List.filter_eq_self.mpr
  intro token member
  have bounds := stretch.rows token member
  rw [decide_eq_true_eq]
  omega

/-- The tokens of some rows start on no other line. -/
theorem Stretch.onLine_eq_nil {first behind number : Nat} {tokens : List Token}
    (stretch : Stretch first behind tokens) (apart : number < first ∨ behind ≤ number) :
    onLine number tokens = [] := by
  apply List.filter_eq_nil_iff.mpr
  intro token member
  have bounds := stretch.rows token member
  rw [decide_eq_true_eq]
  omega

/-- The tokens on a line are those that its row becomes. -/
theorem exists_onLine {file : String} {rows : List (List Char)}
    (noFeed : ∀ row ∈ rows, '\n' ∉ row) {openFence : Option Nat} {number : Nat}
    {tokens : List Token} (reads : tokensOfLines file openFence number rows = .ok tokens)
    {index : Nat} {row : List Char} (here : rows[index]? = some row) :
    ∃ fence, onLine (number + index) tokens =
      (lineTokens file (number + index) (dropReturn row) fence).1 := by
  induction rows generalizing openFence number tokens index with
  | nil => cases here
  | cons raw others ih =>
    obtain ⟨noFeed', below⟩ := List.forall_mem_cons.mp noFeed
    have inRow : '\n' ∉ dropReturn raw :=
      fun member => noFeed' ((dropReturn_isPrefix raw).mem member)
    have own : Stretch number (number + 1) (lineTokens file number (dropReturn raw) openFence).1 :=
      stretch_lineTokens inRow openFence
    have later := stretch_tokensOfLines file below
      (lineTokens file number (dropReturn raw) openFence).2 (number + 1)
    obtain ⟨-, behind, inner, rfl⟩ := exists_of_tokensOfLines_cons reads
    rw [inner] at later
    have later : Stretch (number + 1) (number + 1 + others.length) behind := later
    rw [onLine_append]
    -- the tokens of a row and those of the rows below it stand on different lines
    cases index with
    | zero =>
      cases here
      refine ⟨openFence, ?_⟩
      rw [Nat.add_zero, own.onLine_eq_self, later.onLine_eq_nil (Or.inl (Nat.lt_succ_self _)),
        List.append_nil]
    | succ index =>
      obtain ⟨fence, tokens⟩ := ih below inner here
      refine ⟨fence, ?_⟩
      have place : number + (index + 1) = number + 1 + index := by omega
      rw [own.onLine_eq_nil (Or.inr (by omega)), List.nil_append, place, tokens]

/-- On every row of a text that is not blank, the tokens, without that of its end, stand inside the
row and one behind the other. Unless the description of a link is found too early, they leave out
nothing but white space and at most one hyphen, between the closing bracket of a link and its
description, and the description ends with the last visible character. A description is found too
early exactly if the text behind the bracket starts with a hyphen and, from there on, with what
stands behind this hyphen; then it does not reach the last visible character. -/
theorem tokens_cover_rows (file text : String) (tokens : List Token)
    (reads : documentTokens file text = .ok tokens) (index : Nat) (row : List Char)
    (here : (feedLines text.toList)[index]? = some row) (visible : row.all isBlank = false) :
    let own := withoutEnds (onLine (index + 1) tokens)
    (∀ token ∈ own, token.IsInside (index + 1) row) ∧
      own.Pairwise (fun token next => token.span.stop.column < next.span.start.column) ∧
      (¬FindsEarly row own → CoversRow row own) ∧
      (FindsEarly row own → ∃ close ∈ own, close.kind = .linkClose ∧ ∃ token ∈ own,
        close.span.stop.column < token.span.start.column ∧
        token.span.stop.column < (trimEnd row).length) := by
  intro own
  obtain ⟨behind, inner, rfl⟩ := exists_of_documentTokens reads
  obtain ⟨fence, tokens⟩ := exists_onLine (fun row => noFeed_of_mem_feedLines) inner here
  -- the token of the end of the text stands on the last line and is left out
  have last : withoutEnds (onLine (index + 1) [documentEnd file (feedLines text.toList)]) = [] := by
    apply List.filter_eq_nil_iff.mpr
    intro token member
    rw [List.mem_singleton.mp (List.mem_of_mem_filter member)]
    exact Bool.false_ne_true
  have same : own =
      withoutEnds (lineTokens file (index + 1) (dropReturn row) fence).1 := by
    show withoutEnds (onLine (index + 1) (behind ++ _)) = _
    rw [onLine_append, withoutEnds, List.filter_append, ← withoutEnds, ← withoutEnds, last,
      List.append_nil, Nat.add_comm index 1, tokens]
  have laid : RowLaid (index + 1) row own := by
    rw [same]
    obtain ⟨blanks, cut, white⟩ := exists_dropReturn row
    have shown : (dropReturn row).all isBlank = false := by
      rw [cut, List.all_append, List.all_eq_true.mpr white, Bool.and_true] at visible
      exact visible
    have laid : RowLaid (index + 1) (dropReturn row)
        (withoutEnds (lineTokens file (index + 1) (dropReturn row) fence).1) :=
      .ofLine shown fence
    have whole := laid.append_blanks white
    rwa [← cut] at whole
  obtain ⟨missed, along⟩ := laid.exists_laid
  exact ⟨laid.isInside, along.ordered, laid.covers, laid.stops_early⟩

/-- A link whose description is found behind its hyphen. -/
theorem tokens_cover_rows_link : ∃ tokens, documentTokens "t" "a\n - [b ] -\tc \r" = .ok tokens ∧
    (feedLines "a\n - [b ] -\tc \r".toList)[1]? = some " - [b ] -\tc \r".toList ∧
    " - [b ] -\tc \r".toList.all isBlank = false ∧
    ¬FindsEarly " - [b ] -\tc \r".toList (withoutEnds (onLine 2 tokens)) ∧
    CoversRow " - [b ] -\tc \r".toList (withoutEnds (onLine 2 tokens)) := by
  have here : (feedLines "a\n - [b ] -\tc \r".toList)[1]? = some " - [b ] -\tc \r".toList := by
    decide
  have visible : " - [b ] -\tc \r".toList.all isBlank = false := by decide
  have said : (documentTokens "t" "a\n - [b ] -\tc \r").map (fun tokens =>
      decide (FindsEarly " - [b ] -\tc \r".toList (withoutEnds (onLine 2 tokens)))) =
      .ok false := by decide +kernel
  cases reads : documentTokens "t" "a\n - [b ] -\tc \r" with
  | error diagnostic =>
    rw [reads] at said
    cases said
  | ok tokens =>
    rw [reads] at said
    have sound := of_decide_eq_false (Except.ok.inj said)
    obtain ⟨_, _, covers, _⟩ := tokens_cover_rows "t" _ tokens reads 1 _ here visible
    exact ⟨tokens, rfl, here, visible, sound, covers sound⟩

/-- Behind the bracket, the description is a hyphen. It is found one column too early. -/
theorem description_found_early : (documentTokens "t" "- [t] --").map (withoutEnds ∘ onLine 1) =
      .ok [tokenAt "t" 1 .listBullet ['-'] 0 1, tokenAt "t" 1 .linkOpen ['['] 2 1,
        tokenAt "t" 1 .text ['t'] 3 1, tokenAt "t" 1 .linkClose [']'] 4 1,
        tokenAt "t" 1 .text ['-'] 6 1] ∧
    (feedLines "- [t] --".toList)[0]? = some "- [t] --".toList ∧
    ¬CoversRow "- [t] --".toList [tokenAt "t" 1 .listBullet ['-'] 0 1,
      tokenAt "t" 1 .linkOpen ['['] 2 1, tokenAt "t" 1 .text ['t'] 3 1,
      tokenAt "t" 1 .linkClose [']'] 4 1, tokenAt "t" 1 .text ['-'] 6 1] := by
  refine ⟨by decide +kernel, by decide, fun covers => ?_⟩
  -- the last visible character stands in column 8, and the description in column 7
  have stops := covers.ends (tokenAt "t" 1 .linkClose [']'] 4 1) (by simp) rfl
    (tokenAt "t" 1 .text ['-'] 6 1) (by simp) (by decide)
  exact absurd stops (by decide)

end DocGrammar
