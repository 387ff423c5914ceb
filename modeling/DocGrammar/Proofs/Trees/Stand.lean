import DocGrammar.Proofs.Trees.Schema
import DocGrammar.Specs.Line

/-! # Trees that stand on tokens

A rule reads tokens from left to right, and the nodes that it builds stand on them in that order:
a leaf stands on its token, and any other node on a stretch of tokens that holds its children and
gives it its span. Tokens between the nodes are passed over.

* **`Stand`** — some nodes stand, one behind the other, on some tokens.
* **`Stand.exists_frame`** — where the first of some nodes starts and the last one ends. -/

namespace DocGrammar

/-! ## Tokens with a place of their own -/

/-- Whether tokens of a kind have characters of their own. The ends of lines and of the input are
only places behind others. -/
def TokenKind.isSolid : TokenKind → Bool
  | .newline | .endOfInput => false
  | _ => true

theorem TokenKind.isSolid_of_eq {kind other : TokenKind} (same : other = kind)
    (solid : kind.isSolid = true) : other.isSolid = true := by
  rwa [same]

/-- Whether leaves of a kind are made of tokens of another kind. -/
def NodeKind.isLeafOf (kind : NodeKind) (token : TokenKind) : Bool :=
  match kind with
  | .identifier | .primitiveType | .actionVerb => token = .identifier
  | .comparisonOperator => SpecLine.isComparison token
  | .boolean | .booleanLiteral => token = .booleanLit
  | .number => token = .numberLit
  | .stringLiteral => token = .stringLit
  | .pattern => token = .patternLit
  | _ => false

/-- Leaves are made of solid tokens. -/
theorem NodeKind.isSolid_of_isLeafOf {kind : NodeKind} {token : TokenKind}
    (made : kind.isLeafOf token = true) : token.isSolid = true := by
  cases token with
  | newline => cases kind <;> cases made
  | endOfInput => cases kind <;> cases made
  | _ => rfl

/-- Whether a span goes from the start of the first of some tokens to the end of the last one, and
both are solid. -/
def Framed (tokens : List Token) (span : Option Span) : Prop :=
  ∃ first last, tokens.head? = some first ∧ tokens.getLast? = some last ∧
    first.kind.isSolid = true ∧ last.kind.isSolid = true ∧
    span = some (first.span.through last.span)

theorem framed_singleton {token : Token} (solid : token.kind.isSolid = true) :
    Framed [token] (some token.span) :=
  ⟨token, token, rfl, rfl, solid, solid, rfl⟩

theorem Framed.ne_nil {tokens : List Token} {span : Option Span} (framed : Framed tokens span) :
    tokens ≠ [] := by
  rintro rfl
  obtain ⟨first, _, head, _⟩ := framed
  cases head

theorem Framed.exists_span {tokens : List Token} {span : Option Span}
    (framed : Framed tokens span) : ∃ own, span = some own := by
  obtain ⟨first, last, _, _, _, _, spans⟩ := framed
  exact ⟨_, spans⟩

/-- Tokens that start as some framed ones and end as others are framed from the start of the former
to the end of the latter. -/
theorem Framed.through {tokens more : List Token} {span last : Span}
    (framed : Framed tokens (some span)) (framed' : Framed more (some last))
    (between : List Token) :
    Framed (tokens ++ (between ++ more)) (some (span.through last)) := by
  obtain ⟨start, _, starts, _, solid, _, spans⟩ := framed
  obtain ⟨_, stop, _, stops, _, solid', spans'⟩ := framed'
  refine ⟨start, stop, ?_, ?_, solid, solid', ?_⟩
  · rw [List.head?_append, starts, Option.some_or]
  · rw [List.getLast?_append, List.getLast?_append, stops, Option.some_or, Option.some_or]
  · rw [Option.some.inj spans, Option.some.inj spans']
    rfl

/-! ## Standing on tokens -/

/-- Some nodes stand, one behind the other, on some tokens. Only specs have numbers with a sign. -/
inductive Stand (dialect : Dialect) : List Token → List Node → Prop
  /-- No nodes stand on any tokens. -/
  | none {tokens : List Token} : Stand dialect tokens []
  /-- A token is passed over. -/
  | skip {token : Token} {tokens : List Token} {nodes : List Node}
      (behind : Stand dialect tokens nodes) : Stand dialect (token :: tokens) nodes
  /-- A leaf stands on its token. -/
  | leaf {kind : NodeKind} {field : Option String} {token : Token} {tokens : List Token}
      {nodes : List Node} (made : kind.isLeafOf token.kind = true)
      (behind : Stand dialect tokens nodes) :
      Stand dialect (token :: tokens)
        (⟨kind, [], some token.value, field, some token.span⟩ :: nodes)
  /-- A number with a sign stands on the sign and its digits. -/
  | signed {field : Option String} {sign digits : Token} {tokens : List Token}
      {nodes : List Node} (specs : dialect = .specs) (minus : sign.kind = .minus)
      (number : digits.kind = .numberLit) (behind : Stand dialect tokens nodes) :
      Stand dialect (sign :: digits :: tokens)
        (⟨.number, [], some ("-" ++ digits.value), field,
          some (sign.span.through digits.span)⟩ :: nodes)
  /-- An inner node stands on tokens that its children stand on and that give it its span. -/
  | inner {kind : NodeKind} {children : List Node} {text field : Option String}
      {span : Option Span} {part tokens : List Token} {nodes : List Node}
      (inside : Stand dialect part children) (framed : Framed part span)
      (branches : kind.isLeaf = false) (behind : Stand dialect tokens nodes) :
      Stand dialect (part ++ tokens) (⟨kind, children, text, field, span⟩ :: nodes)

namespace Stand

variable {dialect : Dialect} {tokens more : List Token} {nodes others children : List Node}
  {node first last : Node} {kind : NodeKind} {text field : Option String} {span : Option Span}
  {start stop : Token}

/-- Nodes that stand on tokens behind others stand on all of them. -/
theorem skipAll (stand : Stand dialect tokens nodes) (before : List Token) :
    Stand dialect (before ++ tokens) nodes := by
  induction before with
  | nil => exact stand
  | cons token before ih => exact .skip ih

/-- What stands on some tokens and what stands behind them stand together. -/
theorem append (stand : Stand dialect tokens nodes) (stand' : Stand dialect more others) :
    Stand dialect (tokens ++ more) (nodes ++ others) := by
  induction stand with
  | none => exact stand'.skipAll _
  | skip _ ih => exact .skip ih
  | leaf made _ ih => exact .leaf made ih
  | signed specs minus number _ ih => exact .signed specs minus number ih
  | inner inside framed branches _ _ ih =>
    rw [List.append_assoc]
    exact .inner inside framed branches ih

/-- Nodes that stand on tokens before others stand on all of them. -/
theorem extend (stand : Stand dialect tokens nodes) (more : List Token) :
    Stand dialect (tokens ++ more) nodes := by
  have whole := stand.append (.none : Stand dialect more [])
  rwa [List.append_nil] at whole

/-- An inner node around some tokens stands on them. -/
theorem around (stand : Stand dialect tokens children) (framed : Framed tokens span)
    (branches : kind.isLeaf = false) :
    Stand dialect tokens [⟨kind, children, text, field, span⟩] := by
  have whole : Stand dialect (tokens ++ []) [⟨kind, children, text, field, span⟩] :=
    .inner stand framed branches .none
  rwa [List.append_nil] at whole

/-! ### Parts -/

/-- The first of some nodes stands on a part of the tokens that gives it its span, and the others
stand behind it. -/
theorem exists_part (stand : Stand dialect tokens (node :: nodes)) :
    ∃ before part behind, tokens = before ++ (part ++ behind) ∧ Stand dialect part [node] ∧
      Framed part node.span ∧ Stand dialect behind nodes := by
  generalize whole : node :: nodes = all at stand
  induction stand with
  | none => cases whole
  | @skip token tokens all _ ih =>
    -- the token that is passed over joins those before the part
    obtain ⟨before, part, behind, rfl, stands, framed, others⟩ := ih whole
    exact ⟨token :: before, part, behind, rfl, stands, framed, others⟩
  | @leaf kind field token tokens all made behind =>
    cases whole
    exact ⟨[], [token], tokens, rfl, .leaf made .none,
      framed_singleton (NodeKind.isSolid_of_isLeafOf made), behind⟩
  | @signed field sign digits tokens all specs minus number behind =>
    cases whole
    refine ⟨[], [sign, digits], tokens, rfl, .signed specs minus number .none, ?_, behind⟩
    exact ⟨sign, digits, rfl, rfl, TokenKind.isSolid_of_eq minus rfl,
      TokenKind.isSolid_of_eq number rfl, rfl⟩
  | @inner kind children text field span part tokens all inside framed branches behind =>
    cases whole
    exact ⟨[], part, tokens, rfl, inside.around framed branches, framed, behind⟩

/-- The nodes behind others stand on the tokens behind theirs. -/
theorem exists_split (stand : Stand dialect tokens (nodes ++ others)) :
    ∃ front back, tokens = front ++ back ∧ Stand dialect front nodes ∧
      Stand dialect back others := by
  induction nodes generalizing tokens with
  | nil => exact ⟨[], tokens, rfl, .none, stand⟩
  | cons node nodes ih =>
    obtain ⟨before, part, behind, rfl, stands, _, rest⟩ := exists_part stand
    obtain ⟨front, back, rfl, stands', stands''⟩ := ih rest
    refine ⟨before ++ (part ++ front), back, by simp only [List.append_assoc], ?_, stands''⟩
    exact (stands.append stands').skipAll before

/-- Nodes that stand on tokens stand on at least one of them. -/
theorem ne_nil (stand : Stand dialect tokens (node :: nodes)) : tokens ≠ [] := by
  obtain ⟨before, part, behind, rfl, _, framed, _⟩ := stand.exists_part
  simp [framed.ne_nil]

/-- The tokens from the start of the first of some nodes to the end of the last one. -/
theorem exists_frame (stand : Stand dialect tokens nodes) (starts : nodes.head? = some first)
    (ends : nodes.getLast? = some last) :
    ∃ before part behind firstSpan lastSpan, tokens = before ++ (part ++ behind) ∧
      Stand dialect part nodes ∧ first.span = some firstSpan ∧ last.span = some lastSpan ∧
      Framed part (some (firstSpan.through lastSpan)) := by
  obtain ⟨front, rfl⟩ := List.getLast?_eq_some_iff.mp ends
  obtain ⟨early, late, rfl, standsFront, standsLast⟩ := stand.exists_split
  obtain ⟨between, part, behind, rfl, standsPart, framed, _⟩ := standsLast.exists_part
  cases front with
  | nil =>
    -- the only node is the first and the last one
    cases Option.some.inj starts
    obtain ⟨lastSpan, spans⟩ := framed.exists_span
    refine ⟨early ++ between, part, behind, lastSpan, lastSpan,
      by simp only [List.append_assoc], standsPart, spans, spans, ?_⟩
    rw [spans] at framed
    exact framed
  | cons node front =>
    cases Option.some.inj starts
    obtain ⟨before, head, rest, rfl, standsHead, framed', standsRest⟩ := standsFront.exists_part
    obtain ⟨firstSpan, spans⟩ := framed'.exists_span
    obtain ⟨lastSpan, spans'⟩ := framed.exists_span
    refine ⟨before, head ++ ((rest ++ between) ++ part), behind, firstSpan, lastSpan,
      by simp only [List.append_assoc], ?_, spans, spans', ?_⟩
    · exact standsHead.append ((standsRest.extend between).append standsPart)
    · rw [spans] at framed'
      rw [spans'] at framed
      exact framed'.through framed _

/-! ### Building nodes -/

/-- Nodes that span their children stand where these do. -/
theorem extent_of_ends {firstSpan lastSpan : Span} (starts : nodes.head? = some first)
    (ends : nodes.getLast? = some last) (spans : first.span = some firstSpan)
    (spans' : last.span = some lastSpan) :
    Node.extent nodes = some (firstSpan.through lastSpan) := by
  -- nodes without a span are left out of an extent, but the first and the last one have spans
  obtain ⟨others, rfl⟩ := List.head?_eq_some_iff.mp starts
  unfold Node.extent
  rw [List.filterMap_cons, spans]
  simp only [Option.some.injEq]
  cases others with
  | nil =>
    have same : first = last := by simpa using ends
    subst same
    cases Option.some.inj (spans.symm.trans spans')
    rfl
  | cons next others =>
    obtain ⟨front, whole⟩ := List.getLast?_eq_some_iff.mp (List.getLast?_cons_cons ▸ ends)
    have final : ((next :: others).filterMap Node.span).getLast? = some lastSpan := by
      rw [whole, List.filterMap_append, List.filterMap_cons, spans', List.filterMap_nil,
        List.getLast?_concat]
    rw [final]
    rfl

/-- A node that spans its children. -/
theorem branch (stand : Stand dialect tokens children) (nonempty : children ≠ [])
    (branches : kind.isLeaf = false) :
    Stand dialect tokens [⟨kind, children, text, field, Node.extent children⟩] := by
  have starts := List.head?_eq_some_head nonempty
  have ends := List.getLast?_eq_some_getLast nonempty
  obtain ⟨before, part, behind, _, _, rfl, stands, spans, spans', framed⟩ :=
    stand.exists_frame starts ends
  rw [extent_of_ends starts ends spans spans']
  exact ((stands.around framed branches).extend behind).skipAll before

/-- A node from an opening to a closing token. -/
theorem between (stand : Stand dialect tokens children) (solid : start.kind.isSolid = true)
    (solid' : stop.kind.isSolid = true) (branches : kind.isLeaf = false) :
    Stand dialect (start :: (tokens ++ [stop]))
      [⟨kind, children, text, field, some (start.span.through stop.span)⟩] := by
  have framed := (framed_singleton solid).through (framed_singleton solid') tokens
  exact ((stand.extend [stop]).skipAll [start]).around framed branches

/-- A node from an opening token to the end of its last child. -/
theorem spanFrom (stand : Stand dialect tokens children) (ends : children.getLast? = some last)
    (solid : start.kind.isSolid = true) (branches : kind.isLeaf = false) :
    Stand dialect (start :: tokens)
      [⟨kind, children, text, field, last.spanFrom start.span⟩] := by
  have nonempty : children ≠ [] := by
    rintro rfl
    cases ends
  obtain ⟨before, part, behind, firstSpan, lastSpan, rfl, stands, _, spans, framed⟩ :=
    stand.exists_frame (List.head?_eq_some_head nonempty) ends
  have framed' : Framed ([start] ++ (before ++ part)) (some (start.span.through lastSpan)) :=
    (framed_singleton solid).through framed before
  have whole : Stand dialect ([start] ++ (before ++ part))
      [⟨kind, children, text, field, some (start.span.through lastSpan)⟩] :=
    ((stands.skipAll before).skipAll [start]).around framed' branches
  rw [Node.spanFrom, spans, Option.map_some]
  simpa only [List.append_assoc, List.cons_append, List.nil_append] using whole.extend behind

/-- A node from the start of its first child to a closing token. -/
theorem spanTo (stand : Stand dialect tokens children) (starts : children.head? = some first)
    (solid : stop.kind.isSolid = true) (branches : kind.isLeaf = false) :
    Stand dialect (tokens ++ [stop])
      [⟨kind, children, text, field, first.spanTo stop.span⟩] := by
  have nonempty : children ≠ [] := by
    rintro rfl
    cases starts
  obtain ⟨before, part, behind, firstSpan, lastSpan, rfl, stands, spans, _, framed⟩ :=
    stand.exists_frame starts (List.getLast?_eq_some_getLast nonempty)
  have framed' : Framed (part ++ (behind ++ [stop])) (some (firstSpan.through stop.span)) :=
    framed.through (framed_singleton solid) behind
  have whole : Stand dialect (part ++ (behind ++ [stop]))
      [⟨kind, children, text, field, some (firstSpan.through stop.span)⟩] :=
    (stands.extend (behind ++ [stop])).around framed' branches
  rw [Node.spanTo, spans, Option.map_some]
  simpa only [List.append_assoc] using whole.skipAll before

/-- A field name does not move a node. -/
theorem withField (stand : Stand dialect tokens [node]) (name : String) :
    Stand dialect tokens [node.withField name] := by
  generalize alone : [node] = nodes at stand
  induction stand with
  | none => cases alone
  | skip _ ih => exact .skip (ih alone)
  | leaf made behind =>
    cases alone
    exact .leaf made .none
  | signed specs minus number behind =>
    cases alone
    exact .signed specs minus number .none
  | inner inside framed branches behind =>
    cases alone
    exact .inner inside framed branches .none

/-- The children of an inner node stand where it does. -/
theorem children_of (stand : Stand dialect tokens [node]) (branches : node.kind.isLeaf = false) :
    Stand dialect tokens node.children := by
  generalize alone : [node] = nodes at stand
  induction stand with
  | none => cases alone
  | skip _ ih => exact .skip (ih alone)
  | leaf made behind =>
    cases alone
    exact .none
  | signed specs minus number behind =>
    cases alone
    cases branches
  | inner inside framed branches' behind =>
    cases alone
    exact inside.extend _

end Stand

end DocGrammar
