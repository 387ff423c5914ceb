import DocGrammar.Proofs.Tokens.Placed

/-! # Where nodes stand

Nodes stand on tokens, and tokens stand on the text. So nodes stand, one behind the other, on the
text: each node has a span around those of its children, and a leaf spans what it quotes.

* **`Node.Spaced`** — the spans of the children of a node lie in order within its own.
* **`Node.Quotes`** — a leaf spans characters that say its text.
* **`Stand.placed`** — nodes that rules build stand on the text like this. -/

namespace DocGrammar

/-! ## Spans within spans -/

namespace Node

/-- The spans of the children of a node lie within its own, one behind the other. -/
structure Spaced (node : Node) : Prop where
  /-- The node has a span that does not stop before it starts. -/
  spans : ∃ span, node.span = some span ∧ span.start ≤ span.stop
  /-- The children have spans within that of the node. -/
  inside : ∀ child ∈ node.children, ∃ inner, child.span = some inner ∧
    ∀ outer ∈ node.span, outer.start ≤ inner.start ∧ inner.stop ≤ outer.stop
  /-- Each child ends before the ones behind it start. -/
  ordered : node.children.Pairwise fun child later =>
    ∀ span ∈ child.span, ∀ other ∈ later.span, span.stop < other.start

end Node

/-! ## Leaves that quote the text -/

namespace NodeKind

/-- Whether leaves of a kind say the characters that they span. -/
def isPlain : NodeKind → Bool
  | identifier | primitiveType | actionVerb | comparisonOperator | boolean | booleanLiteral
  | featureName | grammarName | linkDescription | codeLine | latexLine => true
  | _ => false

/-- Whether leaves of a kind quote the characters that they span. -/
def isQuoted (kind : NodeKind) : Bool :=
  kind.isPlain || kind == number || kind == pattern || kind == stringLiteral

/-- Only leaves quote. -/
theorem isQuoted_of_branches {kind : NodeKind} (branches : kind.isLeaf = false) :
    kind.isQuoted = false := by
  cases kind <;> first | rfl | cases branches

end NodeKind

/-- How leaves of a kind say some characters. -/
inductive Quoted : NodeKind → List Char → List Char → Prop
  /-- Most leaves say the characters themselves, which stand on one line. -/
  | plain {kind : NodeKind} {chars : List Char} (isPlain : kind.isPlain = true)
      (noFeed : '\n' ∉ chars) : Quoted kind chars chars
  /-- A number says them without white space. -/
  | number {chars : List Char} (noFeed : '\n' ∉ chars) :
      Quoted .number (chars.filter (!isBlank ·)) chars
  /-- A pattern says what stands between slashes. -/
  | pattern {content : List Char} (noFeed : '\n' ∉ content) :
      Quoted .pattern content ('/' :: (content ++ ['/']))
  /-- A string says what they are read as. -/
  | string {content chars : List Char} (spelled : Spelled .stringLit content chars) :
      Quoted .stringLiteral content chars

/-- A node that quotes has a text and spans characters of a document that say it. -/
def Node.Quotes (document : List Char) (node : Node) : Prop :=
  node.kind.isQuoted = true → ∃ text span own, node.text = some text ∧ node.span = some span ∧
    span.Covers span.start own ∧ Segment document span.start own ∧
    Quoted node.kind text.toList own

/-! ## Nodes on a text -/

/-- A node stands on some characters: it spans them, everything in it is spaced, and everything in
it that quotes does so. -/
structure Node.StandsOn (document : List Char) (start : Position) (own : List Char)
    (node : Node) : Prop where
  /-- It spans the characters. -/
  covers : ∃ span, node.span = some span ∧ span.Covers start own
  /-- The nodes in it are spaced and quote the document. -/
  sound : ∀ inner ∈ node.walk, inner.Spaced ∧ inner.Quotes document

variable {document own chars : List Char} {start : Position} {node : Node} {children : List Node}
  {span : Span}

/-- Nodes that stand one behind the other on a text are apart. -/
theorem Along.apart (along : Along (Node.StandsOn document) start chars children) :
    children.Pairwise fun child later =>
      ∀ span ∈ child.span, ∀ other ∈ later.span, span.stop < other.start := by
  refine along.pairwise ?_
  intro start own gap own' child later here there span spans other spans'
  obtain ⟨_, same, covers⟩ := here.covers
  obtain ⟨_, same', covers'⟩ := there.covers
  cases same.symm.trans spans
  cases same'.symm.trans spans'
  rw [covers'.starts]
  exact lt_of_lt_of_le covers.stop_lt (Position.le_after _ gap)

/-- What stands along a text lies between its ends. -/
theorem Along.lies_of_mem (along : Along (Node.StandsOn document) start chars children)
    (member : node ∈ children) :
    ∃ span, node.span = some span ∧ start ≤ span.start ∧ span.stop < start.after chars := by
  obtain ⟨gap, own, rest, rfl, here⟩ := along.exists_on member
  obtain ⟨span, spans, covers⟩ := here.covers
  refine ⟨span, spans, ?_, lt_of_lt_of_le covers.stop_lt ?_⟩
  · rw [covers.starts]
    exact Position.le_after start gap
  · rw [Position.after_append, Position.after_append]
    exact Position.le_after _ rest

namespace Node

/-- A node around nodes that stand on its characters stands on them. -/
theorem standsOn_around (along : Along (StandsOn document) start own node.children)
    (spans : node.span = some span) (covers : span.Covers start own)
    (mute : node.kind.isQuoted = false) : node.StandsOn document start own := by
  refine ⟨⟨span, spans, covers⟩, forall_mem_walk.mpr ⟨⟨?_, ?_⟩, ?_⟩⟩
  · refine ⟨⟨span, spans, covers.start_le_stop⟩, fun child member => ?_, along.apart⟩
    obtain ⟨inner, spans', starts, stops⟩ := along.lies_of_mem member
    refine ⟨inner, spans', fun outer isSpan => ?_⟩
    cases spans.symm.trans isSpan
    exact ⟨covers.starts.le.trans starts, covers.le_stop stops⟩
  · intro quoted
    rw [mute] at quoted
    cases quoted
  · intro child member
    obtain ⟨_, _, _, _, here⟩ := along.exists_on member
    exact here.sound

/-- A leaf that quotes the characters that its span covers stands on them. -/
theorem standsOn_leaf (childless : node.children = []) (spans : node.span = some span)
    (covers : span.Covers start own) (quotes : node.Quotes document) :
    node.StandsOn document start own := by
  refine ⟨⟨span, spans, covers⟩, forall_mem_walk.mpr ⟨⟨?_, quotes⟩, ?_⟩⟩
  · refine ⟨⟨span, spans, covers.start_le_stop⟩, ?_, ?_⟩
    · rw [childless]
      nofun
    · rw [childless]
      exact .nil
  · rw [childless]
    nofun

/-- A leaf of a kind that does not quote stands on what its span covers. -/
theorem standsOn_leafOf {kind : NodeKind} (mute : kind.isQuoted = false) (text : String)
    (covers : span.Covers start own) : (leafOf kind text span).StandsOn document start own := by
  refine standsOn_leaf rfl rfl covers fun quoted => ?_
  have quoted : kind.isQuoted = true := quoted
  rw [mute] at quoted
  cases quoted

/-- What a leaf spans and says, it quotes. -/
theorem quotes_of_covers {text : String} (texts : node.text = some text)
    (spans : node.span = some span) (covers : span.Covers start own)
    (segment : Segment document start own)
    (quoted : node.kind.isQuoted = true → Quoted node.kind text.toList own) :
    node.Quotes document := by
  intro isQuoted
  refine ⟨text, span, own, texts, spans, ?_, ?_, quoted isQuoted⟩
  · rw [covers.starts]
    exact covers
  · rw [covers.starts]
    exact segment

/-- A leaf that says what it spans, on one line, stands on it. -/
theorem standsOn_plain {kind : NodeKind} (plain : kind.isPlain = true) {text : String}
    (value : text.toList = own) (covers : span.Covers start own)
    (segment : Segment document start own) (noFeed : '\n' ∉ own) :
    (leafOf kind text span).StandsOn document start own := by
  refine standsOn_leaf rfl rfl covers (quotes_of_covers rfl rfl covers segment fun _ => ?_)
  rw [value]
  exact .plain plain noFeed

end Node

/-! ## Leaves of tokens -/

/-- Leaves that say what they span are made of tokens that are their own characters. -/
theorem NodeKind.isVerbatim_of_isPlain {kind : NodeKind} {token : TokenKind}
    (made : kind.isLeafOf token = true) (plain : kind.isPlain = true) :
    token.isVerbatim = true := by
  cases kind with
  | comparisonOperator =>
    cases token with
    | greaterEqual | lessEqual | greater | less | equal | notEqual => rfl
    | _ => cases made
  | _ =>
    first
      | cases made
      | (cases plain; done)
      | (rw [of_decide_eq_true made]; rfl)

/-- A verbatim token is spelled as its value. -/
theorem Spelled.eq_of_isVerbatim {kind : TokenKind} {value : List Char}
    (spelled : Spelled kind value own) (plain : kind.isVerbatim = true) :
    own = value ∧ '\n' ∉ own := by
  cases spelled with
  | verbatim _ _ noFeed => exact ⟨rfl, noFeed⟩
  | _ => cases plain

/-- A number is spelled as its value, without white space. -/
theorem Spelled.eq_of_number {value : List Char} (spelled : Spelled .numberLit value own) :
    own = value ∧ own ≠ [] ∧ ∀ char ∈ own, isBlank char = false := by
  cases spelled with
  | verbatim plain => cases plain
  | number nonempty tight => exact ⟨rfl, nonempty, tight⟩

theorem not_mem_feed_of_tight (tight : ∀ char ∈ own, isBlank char = false) : '\n' ∉ own :=
  fun member => absurd (tight _ member) (by decide)

theorem filter_of_tight (tight : ∀ char ∈ own, isBlank char = false) :
    own.filter (!isBlank ·) = own :=
  List.filter_eq_self.mpr fun char member => by rw [tight char member]; rfl

/-- A leaf quotes the characters of its token. -/
theorem quoted_of_isLeafOf {kind : NodeKind} {token : Token}
    (made : kind.isLeafOf token.kind = true) (spelled : Spelled token.kind token.value.toList own)
    (quoted : kind.isQuoted = true) : Quoted kind token.value.toList own := by
  by_cases plain : kind.isPlain = true
  · -- their tokens are verbatim, so the value is what the token spans
    obtain ⟨rfl, noFeed⟩ := spelled.eq_of_isVerbatim (NodeKind.isVerbatim_of_isPlain made plain)
    exact .plain plain noFeed
  cases kind with
  | number =>
    rw [of_decide_eq_true made] at spelled
    obtain ⟨rfl, _, tight⟩ := spelled.eq_of_number
    have quote := Quoted.number (not_mem_feed_of_tight tight)
    rwa [filter_of_tight tight] at quote
  | pattern =>
    rw [of_decide_eq_true made] at spelled
    cases spelled with
    | verbatim plain => cases plain
    | pattern noFeed => exact .pattern noFeed
  | stringLiteral =>
    rw [of_decide_eq_true made] at spelled
    exact .string spelled
  | _ => first | exact absurd rfl plain | cases quoted

/-! ## Nodes on tokens -/

variable {dialect : Dialect} {tokens : List Token} {nodes : List Node}

/-- A leaf stands on the characters of its token. -/
theorem standsOn_tokenLeaf {kind : NodeKind} {field : Option String} {token : Token}
    (made : kind.isLeafOf token.kind = true) (stands : token.StandsOn document start own) :
    Node.StandsOn document start own ⟨kind, [], some token.value, field, some token.span⟩ :=
  Node.standsOn_leaf rfl rfl stands.covers (Node.quotes_of_covers rfl rfl stands.covers
    stands.segment (quoted_of_isLeafOf made stands.spelled))

/-- The characters of framed tokens are covered by the span of the frame. -/
theorem Framed.exists_covers (framed : Framed tokens (some span))
    (along : Along (CodeOn document) start chars tokens) :
    ∃ gap own behind, chars = gap ++ (own ++ behind) ∧ span.Covers (start.after gap) own ∧
      Along (CodeOn document) (start.after gap) own tokens := by
  obtain ⟨first, last, starts, ends, solid, solid', spans⟩ := framed
  cases spans
  -- the ends of the frame are solid, so they have characters for the span to cover
  obtain ⟨gap, front, own, behind, ownFirst, rfl, here, there, inner⟩ :=
    along.exists_frame starts ends
  exact ⟨gap, front ++ own, behind, rfl, (here solid).covers.through (there solid').covers rfl,
    inner⟩

/-- A number with a sign stands on the sign and the digits. -/
theorem standsOn_signed {field : Option String} {sign digits : Token}
    {between ownDigits : List Char}
    (minus : sign.kind = .minus) (number : digits.kind = .numberLit)
    (signed : SignedOn document sign digits) (stands : sign.StandsOn document start own)
    (stands' : digits.StandsOn document ((start.after own).after between) ownDigits) :
    Node.StandsOn document start (own ++ (between ++ ownDigits))
      ⟨.number, [], some ("-" ++ digits.value), field, some (sign.span.through digits.span)⟩ := by
  obtain ⟨gap, line, blank, segment, stops⟩ := signed minus number
  have spelled := stands'.spelled
  rw [number] at spelled
  obtain ⟨rfl, nonempty, tight⟩ := spelled.eq_of_number
  have covers : (sign.span.through digits.span).Covers start
      (own ++ (between ++ digits.value.toList)) := by
    rw [← List.append_assoc]
    exact stands.covers.through stands'.covers (Position.after_append start own between)
  refine Node.standsOn_leaf rfl rfl covers (Node.quotes_of_covers rfl rfl
    (.of_before rfl stops segment.one_le_column ?_) segment fun _ => ?_)
  · obtain ⟨front, last, shape, noFeed⟩ := stands'.spelled.exists_last
    exact ⟨'-' :: (gap ++ front), last, by rw [shape]; simp, noFeed⟩
  · -- without the white space between them, the characters are the sign and the digits
    have noFeed : '\n' ∉ '-' :: (gap ++ digits.value.toList) := by
      simp [line, not_mem_feed_of_tight tight]
    have quote := Quoted.number noFeed
    have blanks : gap.filter (!isBlank ·) = [] :=
      List.filter_eq_nil_iff.mpr fun char member => by simp [blank char member]
    rw [List.filter_cons_of_pos (by decide), List.filter_append, blanks, filter_of_tight tight]
      at quote
    rw [String.toList_append]
    exact quote

/-- Nodes that stand on tokens stand on the text that the tokens stand on. -/
theorem Stand.placed (stand : Stand dialect tokens nodes)
    (along : Along (CodeOn document) start chars tokens)
    (chain : dialect = .specs → tokens.IsChain (SignedOn document)) :
    Along (Node.StandsOn document) start chars nodes := by
  -- on how the nodes stand; the children of an inner node are placed before the node itself
  induction stand generalizing start chars with
  | none => exact .done
  | skip _ ih =>
    obtain ⟨gap, own, rest, rfl, _, behind⟩ := along.exists_head
    exact .skip (.skip (ih behind fun specs => (chain specs).tail))
  | leaf made _ ih =>
    obtain ⟨gap, own, rest, rfl, here, behind⟩ := along.exists_head
    have solid := NodeKind.isSolid_of_isLeafOf made
    exact .skip (.item (standsOn_tokenLeaf made (here solid))
      (ih behind fun specs => (chain specs).tail))
  | signed specs minus number _ ih =>
    obtain ⟨gap, own, rest, rfl, here, onward⟩ := along.exists_head
    obtain ⟨between, ownDigits, behind, rfl, there, onward⟩ := onward.exists_head
    have signed := (List.isChain_cons_cons.mp (chain specs)).1
    have stands := here (TokenKind.isSolid_of_eq minus rfl)
    have stands' := there (TokenKind.isSolid_of_eq number rfl)
    refine .skip ?_
    rw [← List.append_assoc between, ← List.append_assoc own]
    refine .item (standsOn_signed minus number signed stands stands') (ih ?_ fun specs => ?_)
    · simpa only [Position.after_append] using onward
    · exact (chain specs).tail.tail
  | @inner kind children text field span part tokens nodes inside framed branches _ ih ih' =>
    obtain ⟨front, back, rfl, here, onward⟩ := along.exists_split
    obtain ⟨range, rfl⟩ := framed.exists_span
    obtain ⟨gap, own, behind, rfl, covers, trimmed⟩ := framed.exists_covers here
    have inner := ih trimmed fun specs => (chain specs).left_of_append
    have others := ih' onward fun specs => (chain specs).right_of_append
    have node : Node.StandsOn document (start.after gap) own
        ⟨kind, children, text, field, some range⟩ :=
      Node.standsOn_around inner rfl covers (NodeKind.isQuoted_of_branches branches)
    exact (Along.skip ((Along.single node).extend behind)).append others

/-- Nodes that stand on the first tokens that are seen in code stand along the code. -/
theorem Stand.placed_code {file : String} {rest : List Token}
    (stand : Stand .pseudo tokens nodes) {code : List Token}
    (read : CodeRead file start chars code) (seen : WalkM.seen code = tokens ++ rest)
    (segment : Segment document start chars) :
    Along (Node.StandsOn document) start chars nodes := by
  have along := read.along_seen segment
  rw [seen] at along
  exact (stand.extend rest).placed along nofun

end DocGrammar
