import DocGrammar.Proofs.Tokens.Begins
import DocGrammar.Proofs.Types.Syntax

/-! # Types on other tokens

A derivation looks at nothing but the kinds of its tokens, and its tree holds nothing of them but
their values and their spans. So other tokens that say the same have a derivation with the same
tree, up to spans, and the same nesting.

* **`TypeForm.exists_alike`** — the derivation of tokens that say the same.
* **`TypeForm.isOfType`**, **`TypeForm.endsInside`** — what tokens a type is made of.
* **`TypeForm.derivesType`** — what a type says derives it wherever it is said. -/

namespace DocGrammar

/-! ## What tokens say -/

variable {keywords : KeywordTable} {token other : Token} {read more : List Token}
  {symbols : List (Symbol keywords)}

/-- Tokens that say the same symbols say the same. -/
theorem Says.said_eq (first : Says read symbols) (second : Says more symbols) :
    read.map Token.said = more.map Token.said := by
  induction first generalizing more with
  | nil =>
    cases second
    rfl
  | cons head _ ih =>
    obtain ⟨token, others, rfl, tells, told⟩ := second.of_cons
    have same : ∀ {token other : Token} {symbol : Symbol keywords}, token.Tells symbol →
        other.Tells symbol → token.said = other.said := by
      intro token other symbol first second
      exact Prod.ext (first.kind.trans second.kind.symm) (first.value.trans second.value.symm)
    rw [List.map_cons, List.map_cons, ih told, same head tells]

/-- A token that says what one of a known kind does is of this kind. -/
theorem TokenOf.exists_alike {kind : TokenKind} (token : TokenOf kind) {read : List Token}
    {others : List (TokenKind × String)}
    (same : read.map Token.said = token.val.said :: others) :
    ∃ (next : TokenOf kind) (more : List Token), read = next.val :: more ∧
      next.val.value = token.val.value ∧ more.map Token.said = others := by
  obtain ⟨next, more, rfl, said, rest⟩ := List.map_eq_cons_iff.mp same
  have kind := (Token.kind_of_said said).trans token.property
  exact ⟨⟨next, kind⟩, more, rfl, Token.value_of_said said, rest⟩

/-- Tokens that say what two pieces do are cut where the second piece begins. -/
theorem exists_of_said_append {first second : List Token}
    (same : read.map Token.said = (first ++ second).map Token.said) :
    ∃ head tail, read = head ++ tail ∧ head.map Token.said = first.map Token.said ∧
      tail.map Token.said = second.map Token.said := by
  rw [List.map_append] at same
  exact List.map_eq_append_iff.mp same

/-! ## Derivations of tokens that say the same -/

theorem Feeds.exists_alike (feeds : Feeds)
    (same : read.map Token.said = feeds.tokens.map Token.said) :
    ∃ others : Feeds, others.tokens = read := by
  induction feeds generalizing read with
  | nil =>
    obtain rfl := List.map_eq_nil_iff.mp same
    exact ⟨[], rfl⟩
  | cons feed feeds ih =>
    obtain ⟨next, more, rfl, _, rest⟩ := feed.exists_alike same
    obtain ⟨others, rfl⟩ := ih rest
    exact ⟨next :: others, rfl⟩

theorem BracketPairs.exists_alike (pairs : BracketPairs)
    (same : read.map Token.said = pairs.tokens.map Token.said) :
    ∃ others : BracketPairs, others.tokens = read ∧
      ∀ {element element' : Node}, element'.bare = element.bare →
        (others.extend element').bare = (pairs.extend element).bare := by
  induction pairs generalizing read with
  | nil =>
    obtain rfl := List.map_eq_nil_iff.mp same
    exact ⟨[], rfl, fun alike => alike⟩
  | cons pair pairs ih =>
    obtain ⟨opening, _, rfl, _, behind⟩ := pair.1.exists_alike same
    obtain ⟨closing, _, rfl, _, rest⟩ := pair.2.exists_alike behind
    obtain ⟨others, rfl, extended⟩ := ih rest
    refine ⟨(opening, closing) :: others, rfl, fun alike => extended ?_⟩
    rw [bare_arrayNode, bare_arrayNode, alike]

mutual

/-- Tokens that say what those of a type do derive a type with the same tree, up to spans. -/
theorem TypeForm.exists_alike : ∀ (form : TypeForm) {read : List Token},
    read.map Token.said = form.tokens.map Token.said →
    ∃ other : TypeForm, other.tokens = read ∧ other.node.bare = form.node.bare ∧
      other.nest = form.nest
  | .of first others, _, same => by
    -- tokens that say the same are cut where the derivation cuts its own
    obtain ⟨head, tail, rfl, sameFirst, sameOthers⟩ := exists_of_said_append same
    obtain ⟨array, rfl, arrayNode, arrayInside⟩ := first.exists_alike sameFirst
    obtain ⟨union, rfl, unionNode, unionInside⟩ := others.exists_alike sameOthers
    refine ⟨.of array union, rfl, unionNode arrayNode, ?_⟩
    rw [TypeForm.nest, arrayInside, unionInside, TypeForm.nest]

theorem UnionForm.exists_alike : ∀ (form : UnionForm) {read : List Token},
    read.map Token.said = form.tokens.map Token.said →
    ∃ other : UnionForm, other.tokens = read ∧
      (∀ {left left' : Node}, left'.bare = left.bare →
        (other.extend left').bare = (form.extend left).bare) ∧
      other.inside = form.inside
  | .last, _, same => by
    obtain rfl := List.map_eq_nil_iff.mp same
    exact ⟨.last, rfl, fun alike => alike, rfl⟩
  | .bar mark next others, _, same => by
    obtain ⟨bar, _, rfl, _, rest⟩ := mark.exists_alike same
    obtain ⟨head, tail, rfl, sameNext, sameOthers⟩ := exists_of_said_append rest
    obtain ⟨array, rfl, arrayNode, arrayInside⟩ := next.exists_alike sameNext
    obtain ⟨union, rfl, unionNode, unionInside⟩ := others.exists_alike sameOthers
    refine ⟨.bar bar array union, rfl, fun alike => unionNode ?_, ?_⟩
    · rw [bare_unionNode, bare_unionNode, alike, arrayNode]
    · rw [UnionForm.inside, arrayInside, unionInside, UnionForm.inside]

theorem ArrayForm.exists_alike : ∀ (form : ArrayForm) {read : List Token},
    read.map Token.said = form.tokens.map Token.said →
    ∃ other : ArrayForm, other.tokens = read ∧ other.node.bare = form.node.bare ∧
      other.inside = form.inside
  | .of atom pairs, _, same => by
    obtain ⟨head, tail, rfl, sameAtom, samePairs⟩ := exists_of_said_append same
    obtain ⟨inner, rfl, innerNode, inside⟩ := atom.exists_alike sameAtom
    obtain ⟨brackets, rfl, extended⟩ := pairs.exists_alike samePairs
    exact ⟨.of inner brackets, rfl, extended innerNode, inside⟩

theorem AtomForm.exists_alike : ∀ (form : AtomForm) {read : List Token},
    read.map Token.said = form.tokens.map Token.said →
    ∃ other : AtomForm, other.tokens = read ∧ other.node.bare = form.node.bare ∧
      other.inside = form.inside
  | .name word, _, same => by
    obtain ⟨name, more, rfl, value, rest⟩ := word.exists_alike same
    obtain rfl := List.map_eq_nil_iff.mp rest
    refine ⟨.name name, rfl, ?_, rfl⟩
    rw [AtomForm.node, AtomForm.node, namedNode, namedNode, bare_wrap, bare_wrap, Node.bare_leaf,
      Node.bare_leaf, value]
  | .generic word opening first others closing, _, same => by
    obtain ⟨name, _, rfl, value, behindName⟩ := word.exists_alike same
    obtain ⟨less, _, rfl, _, behindLess⟩ := opening.exists_alike behindName
    obtain ⟨head, _, rfl, sameFirst, behindFirst⟩ := exists_of_said_append behindLess
    obtain ⟨tail, _, rfl, sameOthers, behindOthers⟩ := exists_of_said_append behindFirst
    obtain ⟨greater, _, rfl, _, rest⟩ := closing.exists_alike behindOthers
    obtain rfl := List.map_eq_nil_iff.mp rest
    obtain ⟨type, rfl, typeNode, typeNest⟩ := first.exists_alike sameFirst
    obtain ⟨arguments, rfl, argumentNodes, argumentNest⟩ := others.exists_alike sameOthers
    refine ⟨.generic name less type arguments greater, rfl, ?_, ?_⟩
    · rw [AtomForm.node, AtomForm.node, bare_wrap, bare_wrap, Node.bare_spanning,
        Node.bare_spanning, List.map_cons, List.map_cons, List.map_cons, List.map_cons,
        Node.bare_leaf, Node.bare_leaf, value, typeNode, argumentNodes]
    · rw [AtomForm.inside, typeNest, argumentNest, AtomForm.inside]
  | .object opening feeds body closing, _, same => by
    obtain ⟨brace, _, rfl, _, behindBrace⟩ := opening.exists_alike same
    obtain ⟨head, _, rfl, sameFeeds, behindFeeds⟩ := exists_of_said_append behindBrace
    obtain ⟨tail, _, rfl, sameBody, behindBody⟩ := exists_of_said_append behindFeeds
    obtain ⟨closed, _, rfl, _, rest⟩ := closing.exists_alike behindBody
    obtain rfl := List.map_eq_nil_iff.mp rest
    obtain ⟨lines, rfl⟩ := feeds.exists_alike sameFeeds
    obtain ⟨object, rfl, objectNodes, objectInside⟩ := body.exists_alike sameBody
    refine ⟨.object brace lines object closed, rfl, ?_, objectInside⟩
    rw [AtomForm.node, AtomForm.node, bare_wrap, bare_wrap, Node.bare_spanning,
      Node.bare_spanning, objectNodes]

theorem ArgumentsForm.exists_alike : ∀ (form : ArgumentsForm) {read : List Token},
    read.map Token.said = form.tokens.map Token.said →
    ∃ other : ArgumentsForm, other.tokens = read ∧
      other.nodes.map Node.bare = form.nodes.map Node.bare ∧ other.inside = form.inside
  | .last, _, same => by
    obtain rfl := List.map_eq_nil_iff.mp same
    exact ⟨.last, rfl, rfl, rfl⟩
  | .comma mark next others, _, same => by
    obtain ⟨comma, _, rfl, _, rest⟩ := mark.exists_alike same
    obtain ⟨head, tail, rfl, sameNext, sameOthers⟩ := exists_of_said_append rest
    obtain ⟨type, rfl, typeNode, typeNest⟩ := next.exists_alike sameNext
    obtain ⟨arguments, rfl, argumentNodes, argumentNest⟩ := others.exists_alike sameOthers
    refine ⟨.comma comma type arguments, rfl, ?_, ?_⟩
    · rw [ArgumentsForm.nodes, ArgumentsForm.nodes, List.map_cons, List.map_cons, typeNode,
        argumentNodes]
    · rw [ArgumentsForm.inside, typeNest, argumentNest, ArgumentsForm.inside]

theorem ObjectForm.exists_alike : ∀ (form : ObjectForm) {read : List Token},
    read.map Token.said = form.tokens.map Token.said →
    ∃ other : ObjectForm, other.tokens = read ∧
      other.nodes.map Node.bare = form.nodes.map Node.bare ∧ other.inside = form.inside
  | .empty, _, same => by
    obtain rfl := List.map_eq_nil_iff.mp same
    exact ⟨.empty, rfl, rfl, rfl⟩
  | .properties first feeds others, _, same => by
    obtain ⟨head, _, rfl, sameFirst, behindFirst⟩ := exists_of_said_append same
    obtain ⟨middle, tail, rfl, sameFeeds, sameOthers⟩ := exists_of_said_append behindFirst
    obtain ⟨property, rfl, propertyNode, propertyInside⟩ := first.exists_alike sameFirst
    obtain ⟨lines, rfl⟩ := feeds.exists_alike sameFeeds
    obtain ⟨further, rfl, furtherNodes, furtherInside⟩ := others.exists_alike sameOthers
    refine ⟨.properties property lines further, rfl, ?_, ?_⟩
    · rw [ObjectForm.nodes, ObjectForm.nodes, List.map_cons, List.map_cons, propertyNode,
        furtherNodes]
    · rw [ObjectForm.inside, propertyInside, furtherInside, ObjectForm.inside]

theorem PropertyForm.exists_alike : ∀ (form : PropertyForm) {read : List Token},
    read.map Token.said = form.tokens.map Token.said →
    ∃ other : PropertyForm, other.tokens = read ∧ other.node.bare = form.node.bare ∧
      other.inside = form.inside
  | .of word colon type, _, same => by
    obtain ⟨name, _, rfl, value, behindName⟩ := word.exists_alike same
    obtain ⟨mark, _, rfl, _, rest⟩ := colon.exists_alike behindName
    obtain ⟨form, rfl, formNode, formNest⟩ := type.exists_alike rest
    refine ⟨.of name mark form, rfl, ?_, formNest⟩
    simp only [PropertyForm.node, Node.bare_branch, List.map_cons, List.map_nil, Node.bare_leaf,
      value, formNode]

theorem PropertiesForm.exists_alike : ∀ (form : PropertiesForm) {read : List Token},
    read.map Token.said = form.tokens.map Token.said →
    ∃ other : PropertiesForm, other.tokens = read ∧
      other.nodes.map Node.bare = form.nodes.map Node.bare ∧ other.inside = form.inside
  | .last, _, same => by
    obtain rfl := List.map_eq_nil_iff.mp same
    exact ⟨.last, rfl, rfl, rfl⟩
  | .trailing mark feeds, _, same => by
    obtain ⟨comma, _, rfl, _, rest⟩ := mark.exists_alike same
    obtain ⟨lines, rfl⟩ := feeds.exists_alike rest
    exact ⟨.trailing comma lines, rfl, rfl, rfl⟩
  | .comma mark feeds next feedsBehind others, _, same => by
    obtain ⟨comma, _, rfl, _, rest⟩ := mark.exists_alike same
    obtain ⟨first, _, rfl, sameFeeds, behindFeeds⟩ := exists_of_said_append rest
    obtain ⟨second, _, rfl, sameNext, behindNext⟩ := exists_of_said_append behindFeeds
    obtain ⟨third, last, rfl, sameBehind, sameOthers⟩ := exists_of_said_append behindNext
    obtain ⟨lines, rfl⟩ := feeds.exists_alike sameFeeds
    obtain ⟨property, rfl, propertyNode, propertyInside⟩ := next.exists_alike sameNext
    obtain ⟨linesBehind, rfl⟩ := feedsBehind.exists_alike sameBehind
    obtain ⟨further, rfl, furtherNodes, furtherInside⟩ := others.exists_alike sameOthers
    refine ⟨.comma comma lines property linesBehind further, rfl, ?_, ?_⟩
    · rw [PropertiesForm.nodes, PropertiesForm.nodes, List.map_cons, List.map_cons, propertyNode,
        furtherNodes]
    · rw [PropertiesForm.inside, propertyInside, furtherInside, PropertiesForm.inside]

end

/-! ## The tokens of a type -/

/-- Whether a token of a type is a name or a mark, or ends a line between the properties of an
object. -/
def Token.IsOfType (token : Token) : Prop := token.kind.isFixed = true ∨ token.kind = .newline

theorem TokenOf.isOfType {kind : TokenKind} (token : TokenOf kind) (fixed : kind.isFixed = true) :
    token.val.IsOfType := by
  left
  rw [token.property]
  exact fixed

theorem Feeds.isOfType (feeds : Feeds) : ∀ token ∈ feeds.tokens, token.IsOfType := by
  intro token member
  obtain ⟨feed, _, rfl⟩ := List.mem_map.mp member
  exact .inr feed.property

theorem BracketPairs.isOfType (pairs : BracketPairs) : ∀ token ∈ pairs.tokens, token.IsOfType := by
  intro token member
  obtain ⟨pair, _, inside⟩ := List.mem_flatMap.mp member
  simp only [List.mem_cons, List.not_mem_nil, or_false] at inside
  rcases inside with rfl | rfl
  · exact pair.1.isOfType rfl
  · exact pair.2.isOfType rfl

mutual

/-- A type is made of names, marks and line ends. -/
theorem TypeForm.isOfType : ∀ (form : TypeForm), ∀ token ∈ form.tokens, token.IsOfType
  | .of first others => List.forall_mem_append.mpr ⟨first.isOfType, others.isOfType⟩

theorem UnionForm.isOfType : ∀ (form : UnionForm), ∀ token ∈ form.tokens, token.IsOfType
  | .last => List.forall_mem_nil _
  | .bar mark next others =>
    List.forall_mem_cons.mpr
      ⟨mark.isOfType rfl, List.forall_mem_append.mpr ⟨next.isOfType, others.isOfType⟩⟩

theorem ArrayForm.isOfType : ∀ (form : ArrayForm), ∀ token ∈ form.tokens, token.IsOfType
  | .of atom pairs => List.forall_mem_append.mpr ⟨atom.isOfType, pairs.isOfType⟩

theorem AtomForm.isOfType : ∀ (form : AtomForm), ∀ token ∈ form.tokens, token.IsOfType
  | .name word => List.forall_mem_singleton.mpr (word.isOfType rfl)
  | .generic word opening first others closing =>
    List.forall_mem_cons.mpr ⟨word.isOfType rfl, List.forall_mem_cons.mpr ⟨opening.isOfType rfl,
      List.forall_mem_append.mpr ⟨first.isOfType, List.forall_mem_append.mpr
        ⟨others.isOfType, List.forall_mem_singleton.mpr (closing.isOfType rfl)⟩⟩⟩⟩
  | .object opening feeds body closing =>
    List.forall_mem_cons.mpr ⟨opening.isOfType rfl, List.forall_mem_append.mpr
      ⟨feeds.isOfType, List.forall_mem_append.mpr
        ⟨body.isOfType, List.forall_mem_singleton.mpr (closing.isOfType rfl)⟩⟩⟩

theorem ArgumentsForm.isOfType : ∀ (form : ArgumentsForm), ∀ token ∈ form.tokens, token.IsOfType
  | .last => List.forall_mem_nil _
  | .comma mark next others =>
    List.forall_mem_cons.mpr
      ⟨mark.isOfType rfl, List.forall_mem_append.mpr ⟨next.isOfType, others.isOfType⟩⟩

theorem ObjectForm.isOfType : ∀ (form : ObjectForm), ∀ token ∈ form.tokens, token.IsOfType
  | .empty => List.forall_mem_nil _
  | .properties first feeds others =>
    List.forall_mem_append.mpr
      ⟨first.isOfType, List.forall_mem_append.mpr ⟨feeds.isOfType, others.isOfType⟩⟩

theorem PropertyForm.isOfType : ∀ (form : PropertyForm), ∀ token ∈ form.tokens, token.IsOfType
  | .of word colon type =>
    List.forall_mem_cons.mpr
      ⟨word.isOfType rfl, List.forall_mem_cons.mpr ⟨colon.isOfType rfl, type.isOfType⟩⟩

theorem PropertiesForm.isOfType : ∀ (form : PropertiesForm), ∀ token ∈ form.tokens, token.IsOfType
  | .last => List.forall_mem_nil _
  | .trailing mark feeds => List.forall_mem_cons.mpr ⟨mark.isOfType rfl, feeds.isOfType⟩
  | .comma mark feeds next feedsBehind others =>
    List.forall_mem_cons.mpr ⟨mark.isOfType rfl, List.forall_mem_append.mpr
      ⟨feeds.isOfType, List.forall_mem_append.mpr ⟨next.isOfType, List.forall_mem_append.mpr
        ⟨feedsBehind.isOfType, others.isOfType⟩⟩⟩⟩

end

/-! ## How a type ends -/

/-- Whether the last of some tokens ends no line. -/
def EndsInside (tokens : List Token) : Prop :=
  ∃ front last, tokens = front ++ [last] ∧ last.kind ≠ .newline

theorem EndsInside.append (ends : EndsInside more) (front : List Token) :
    EndsInside (front ++ more) := by
  obtain ⟨inner, last, rfl, inside⟩ := ends
  exact ⟨front ++ inner, last, (List.append_assoc _ _ _).symm, inside⟩

theorem TokenOf.endsInside {kind : TokenKind} (token : TokenOf kind) (inside : kind ≠ .newline)
    (front : List Token) : EndsInside (front ++ [token.val]) := by
  refine ⟨front, token.val, rfl, ?_⟩
  rw [token.property]
  exact inside

theorem AtomForm.endsInside (form : AtomForm) : EndsInside form.tokens := by
  cases form with
  | name word => exact word.endsInside TokenKind.noConfusion []
  | generic word opening first others closing =>
    have last := closing.endsInside TokenKind.noConfusion others.tokens
    exact (last.append first.tokens).append [word.val, opening.val]
  | object opening feeds body closing =>
    have last := closing.endsInside TokenKind.noConfusion body.tokens
    exact (last.append feeds.tokens).append [opening.val]

theorem ArrayForm.endsInside (form : ArrayForm) : EndsInside form.tokens := by
  obtain ⟨atom, pairs⟩ := form
  rw [ArrayForm.tokens]
  -- the last token is that of the last pair of brackets, if there is one
  by_cases plain : pairs = []
  · subst plain
    rw [BracketPairs.tokens, List.flatMap_nil, List.append_nil]
    exact atom.endsInside
  · obtain ⟨others, pair, rfl⟩ := (List.eq_nil_or_concat pairs).resolve_left plain
    have last := pair.2.endsInside TokenKind.noConfusion [pair.1.val]
    rw [BracketPairs.tokens, List.concat_eq_append, List.flatMap_append]
    exact (last.append _).append _

/-- A union ends inside a line if it holds anything. -/
theorem UnionForm.endsInside : ∀ (form : UnionForm) {front : List Token},
    EndsInside front → EndsInside (front ++ form.tokens)
  | .last, _, ends => by
    rw [UnionForm.tokens, List.append_nil]
    exact ends
  | .bar mark next others, front, _ => by
    have last := others.endsInside (next.endsInside.append [mark.val])
    exact last.append front

/-- The last token of a type ends no line. -/
theorem TypeForm.endsInside (form : TypeForm) : EndsInside form.tokens := by
  obtain ⟨first, others⟩ := form
  exact others.endsInside first.endsInside

/-- A type that a line is read as, up to the end of the line or of the input, takes all tokens of
the line. -/
theorem TypeForm.tokens_eq_of_line (form : TypeForm) {tokens rest : List Token}
    {feed finish next : Token} (split : tokens ++ [feed, finish] = form.tokens ++ next :: rest)
    (inner : ∀ token ∈ tokens, token.kind ≠ .newline ∧ token.kind ≠ .endOfInput)
    (isFeed : feed.kind = .newline) (stops : next.kind = .newline ∨ next.kind = .endOfInput) :
    form.tokens = tokens := by
  rcases List.append_eq_append_iff.mp split with ⟨more, same, behind⟩ | ⟨more, same, behind⟩
  · -- the type takes the end of the line at most, with which it does not end
    cases more with
    | nil => rw [same, List.append_nil]
    | cons first others =>
      obtain ⟨rfl, behind⟩ := List.cons.inj behind
      obtain rfl : others = [] := by
        cases others with
        | nil => rfl
        | cons second others =>
          have lengths := congrArg List.length behind
          simp only [List.length_append, List.length_cons, List.length_nil] at lengths
          omega
      obtain ⟨front, last, whole, inside⟩ := form.endsInside
      rw [same] at whole
      obtain ⟨_, singletons⟩ := List.append_inj' whole rfl
      rw [List.singleton_inj.mp singletons] at isFeed
      exact absurd isFeed inside
  · -- otherwise the type stops before a token of the line
    cases more with
    | nil => rw [same, List.append_nil]
    | cons first others =>
      obtain ⟨rfl, _⟩ := List.cons.inj behind
      have here := inner next (same ▸ List.mem_append_right _ List.mem_cons_self)
      exact (stops.elim here.1 here.2).elim

/-! ## Symbols of a type -/

/-- What the tokens of a type say derives a type with its tree. -/
theorem TypeForm.derivesType (form : TypeForm) (told : Says form.tokens symbols) :
    DerivesType symbols form.node.bare form.nest :=
  fun _ again => form.exists_alike (again.said_eq told)

end DocGrammar
