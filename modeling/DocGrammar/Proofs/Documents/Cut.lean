import DocGrammar.Proofs.Documents.Conserved
import Mathlib.Algebra.Ring.Parity

/-! # What a document is cut from

A document has one section for every heading marker among its tokens, and a preamble if an item
starts before the first of them. Its last section is at fault if the tokens end inside a fenced
block, that is behind an odd number of fences.

* **`Document.CutFrom`** — how a document relates to the tokens that it is cut from.
* **`Document.exists_cutInto`** — a document is the sections of its tokens without an empty
  preamble.
* **`Document.cutFrom_or_refused`** — tokens are cut into such a document or one of them is
  refused. -/

namespace DocGrammar

/-! ## Headings and fences among tokens -/

/-- Whether a token starts a heading. -/
def Token.isHeadingMarker (token : Token) : Bool := token.kind = .headingMarker

/-- Whether a token is a fence. -/
def Token.isFenceMarker (token : Token) : Bool := token.kind = .fenceMarker

/-- Whether a token starts an item of a section. -/
def Token.startsItem (token : Token) : Bool :=
  token.kind = .line ∨ token.kind = .fenceMarker ∨ token.kind = .listBullet

/-- Whether some tokens end inside a fenced block. -/
def EndsInFence (tokens : List Token) : Prop := Odd (tokens.countP Token.isFenceMarker)

variable {item : Item} {part : Section} {parts : List Section} {tokens : List Token}

/-- Lists with an even number of places each have an even number of them together. -/
theorem even_countP_flatMap {α β : Type} {holds : β → Bool} {pieces : α → List β} {list : List α}
    (even : ∀ place ∈ list, Even ((pieces place).countP holds)) :
    Even ((list.flatMap pieces).countP holds) := by
  induction list with
  | nil => exact Even.zero
  | cons place others ih =>
    obtain ⟨here, below⟩ := List.forall_mem_cons.mp even
    rw [List.flatMap_cons, List.countP_append]
    exact here.add (ih below)

/-- The tokens of one kind hold no other one. -/
theorem countP_of_kind {kind : TokenKind} {holds : Token → Bool}
    (kinds : ∀ token ∈ tokens, token.kind = kind)
    (differs : ∀ token : Token, token.kind = kind → holds token = false) :
    tokens.countP holds = 0 :=
  List.countP_eq_zero.mpr fun token member => by simp [differs token (kinds token member)]

/-- An item holds no heading. -/
theorem Item.Formed.isHeadingMarker (formed : item.Formed) :
    ∀ token ∈ item.tokens, token.isHeadingMarker = false := by
  cases formed with
  | text kinds =>
    exact fun token member => by simp [Token.isHeadingMarker, kinds token member]
  | fenced opener lines closer =>
    intro token member
    simp only [Item.tokens, FencedBlock.tokens, List.mem_cons, List.mem_append,
      Option.mem_toList] at member
    rcases member with rfl | inner | last
    · simp [Token.isHeadingMarker, opener]
    · simp [Token.isHeadingMarker, lines token inner]
    · simp [Token.isHeadingMarker, closer token last]
  | link bullet target description =>
    intro token member
    simp only [Item.tokens, ContextLink.tokens, List.mem_cons, Option.mem_toList] at member
    rcases member with rfl | rfl | last
    · simp [Token.isHeadingMarker, bullet]
    · simp [Token.isHeadingMarker, target]
    · simp [Token.isHeadingMarker, description token last]

/-- An item starts with its first token, which starts an item. -/
theorem Item.Formed.exists_startsItem (formed : item.Formed) :
    ∃ token ∈ item.tokens, token.startsItem = true ∧ item.span.start = token.span.start := by
  cases formed with
  | @text block kinds consecutive =>
    have first : block.first ∈ block.lines := List.mem_cons_self
    exact ⟨block.first, first, by simp [Token.startsItem, kinds _ first], rfl⟩
  | fenced opener => exact ⟨_, List.mem_cons_self, by simp [Token.startsItem, opener], rfl⟩
  | link bullet => exact ⟨_, List.mem_cons_self, by simp [Token.startsItem, bullet], rfl⟩

/-- Only an open fence makes the number of fences odd. -/
theorem Item.Formed.odd_fences (formed : item.Formed) :
    Odd (item.tokens.countP Token.isFenceMarker) ↔ item.isOpen = true := by
  cases formed with
  | @text block kinds =>
    have none : (Item.text block).tokens.countP Token.isFenceMarker = 0 :=
      countP_of_kind kinds fun token kind => by simp [Token.isFenceMarker, kind]
    simp [none, Item.isOpen]
  | @fenced block opener lines closer =>
    have inner : block.lines.countP Token.isFenceMarker = 0 :=
      countP_of_kind lines fun token kind => by simp [Token.isFenceMarker, kind]
    have first : block.opener.isFenceMarker = true := by simp [Token.isFenceMarker, opener]
    -- an opening fence is paired with a closing one, if there is one
    cases last : block.closer with
    | none =>
      simp [Item.tokens, FencedBlock.tokens, Item.isOpen, inner, first, last]
    | some token =>
      have ends : token.isFenceMarker = true := by simp [Token.isFenceMarker, closer token last]
      simp [Item.tokens, FencedBlock.tokens, Item.isOpen, inner, first, last, ends]
  | @link context bullet target description =>
    have none : (Item.link context).tokens.countP Token.isFenceMarker = 0 := by
      refine List.countP_eq_zero.mpr fun token member => ?_
      simp only [Item.tokens, ContextLink.tokens, List.mem_cons, Option.mem_toList] at member
      rcases member with rfl | rfl | last
      · simp [Token.isFenceMarker, bullet]
      · simp [Token.isFenceMarker, target]
      · simp [Token.isFenceMarker, description token last]
    simp [none, Item.isOpen]

/-- The only heading of a section is its own. -/
theorem Section.Formed.filter_isHeadingMarker (formed : part.Formed) :
    part.tokens.filter Token.isHeadingMarker = part.heading.toList.map Heading.marker := by
  have items : (part.items.flatMap Item.tokens).filter Token.isHeadingMarker = [] := by
    refine List.filter_eq_nil_iff.mpr fun token member => ?_
    obtain ⟨item, inside, here⟩ := List.mem_flatMap.mp member
    simp [(formed.items item inside).isHeadingMarker token here]
  rw [Section.tokens, List.filter_append, items, List.append_nil]
  cases here : part.heading with
  | none => rfl
  | some heading =>
    obtain ⟨marker, title⟩ := formed.heading heading here
    simp [Heading.tokens, Token.isHeadingMarker, marker, title]

/-- The number of fences in a section is odd if the section is at fault. -/
theorem Section.Formed.odd_fences (formed : part.Formed) :
    Odd (part.tokens.countP Token.isFenceMarker) ↔ part.failure.isSome = true := by
  have heading : (part.heading.toList.flatMap Heading.tokens).countP Token.isFenceMarker = 0 := by
    cases here : part.heading with
    | none => rfl
    | some heading =>
      obtain ⟨marker, title⟩ := formed.heading heading here
      simp [Heading.tokens, Token.isFenceMarker, marker, title]
  have even : ∀ {items : List Item}, (∀ item ∈ items, item.Formed) →
      (∀ item ∈ items, item.isOpen = false) →
      Even ((items.flatMap Item.tokens).countP Token.isFenceMarker) := by
    intro items kinds closed
    refine even_countP_flatMap fun item member => Nat.not_odd_iff_even.mp fun odd => ?_
    rw [(kinds item member).odd_fences, closed item member] at odd
    cases odd
  rw [Section.tokens, List.countP_append, heading, Nat.zero_add]
  cases fault : part.failure with
  | none =>
    have even := even formed.items (formed.closed fault)
    simpa using even
  | some diagnostic =>
    obtain ⟨before, opener, lines, items, closed, _⟩ := formed.fault diagnostic fault
    obtain ⟨front, last⟩ := List.forall_mem_append.mp (items ▸ formed.items)
    -- only the last item is open, those in front of it have an even number of fences
    have odd := (last _ List.mem_cons_self).odd_fences.mpr rfl
    have even := even front closed
    rw [items, List.flatMap_append, List.countP_append, List.flatMap_singleton]
    exact iff_of_true (even.add_odd odd) rfl

/-! ## Documents and their tokens -/

namespace Document

/-- What a document is that is cut from some tokens. -/
structure CutFrom (tokens : List Token) (source : Document) : Prop where
  /-- The directive, the headings and the items hold the tokens, in their order, without line ends,
  comments, the brackets of links and the end of the input. -/
  held : source.tokens = content tokens
  /-- The directive is the first token, if that is one. -/
  directive : source.directive.map Directive.token =
    tokens.head?.filter fun token => token.kind = .shebang
  /-- There is one section for every heading marker, and in front of them a preamble if an item
  starts before the first of them. -/
  sections : ∃ (preamble : Option Section) (headed : List Section),
    source.sections = preamble.toList ++ headed ∧
    (∀ part ∈ preamble, part.heading = none ∧ part.items ≠ []) ∧
    (preamble.isSome ↔
      ∃ token ∈ tokens.takeWhile fun token => !token.isHeadingMarker, token.startsItem) ∧
    headed.map (fun part => part.heading.map Heading.marker) =
      (tokens.filter Token.isHeadingMarker).map some
  /-- In the text blocks of a section line numbers increase by one, and no text block goes on with
  the one before it. -/
  formed : ∀ part ∈ source.sections, part.Formed
  /-- A section is at fault if it is the last one and the tokens end inside a fenced block. -/
  failure : ∀ (index : Nat) (inside : index < source.sections.length),
    source.sections[index].failure.isSome ↔
      index + 1 = source.sections.length ∧ EndsInFence tokens

variable {file : String} {source : Document} {rest : List Token} {directive : Option Directive}

/-- A directive is the first token. -/
theorem eq_of_splitDirective (split : splitDirective tokens = .ok (directive, rest)) :
    tokens = directive.toList.map Directive.token ++ rest ∧
      (∀ named ∈ directive, named.token.kind = .shebang) ∧
      directive.map Directive.token = tokens.head?.filter fun token => token.kind = .shebang := by
  cases tokens with
  | nil =>
    cases split
    exact ⟨rfl, fun _ none => absurd none (Option.not_mem_none _), rfl⟩
  | cons token others =>
    rw [splitDirective] at split
    split at split
    · next isDirective =>
      split at split <;> cases split
      refine ⟨rfl, fun named same => ?_, ?_⟩
      · cases Option.some.inj same
        exact isDirective
      · simp [Option.filter, isDirective]
    · next other =>
      cases split
      exact ⟨rfl, fun _ none => absurd none (Option.not_mem_none _), by simp [Option.filter, other]⟩

/-- What stands behind a directive ends with the input. -/
theorem endsInput_of_splitDirective (ends : EndsInput tokens)
    (split : splitDirective tokens = .ok (directive, rest)) : EndsInput rest := by
  obtain ⟨same, kind, _⟩ := eq_of_splitDirective split
  rw [same] at ends
  refine ends.of_append ?_
  rintro rfl
  cases directive with
  | none => exact ends
  | some named =>
    have isLast : named.token.kind = .endOfInput := ends
    rw [kind named rfl] at isLast
    cases isLast

/-- A document is the sections of its tokens without an empty preamble. -/
theorem exists_cutInto (ends : EndsInput tokens) (cuts : ofTokens file tokens = .ok source) :
    ∃ rest parts, splitDirective tokens = .ok (source.directive, rest) ∧
      Draft.CutInto rest parts ∧ source.sections = dropEmptyPreamble parts := by
  obtain ⟨-, rest, parts, split, cut, whole⟩ := exists_sections_of_ofTokens cuts
  exact ⟨rest, parts, split,
    Draft.keeps_empty.cutInto_cuts (endsInput_of_splitDirective ends split)
      (Draft.cuts_of_sections cut), whole⟩

/-- Tokens are refused at the place of one of them. -/
theorem exists_of_ofTokens {diagnostic : Diagnostic}
    (refused : ofTokens file tokens = .error diagnostic) :
    ∃ token ∈ tokens, diagnostic.span = token.span := by
  rcases ofTokens_cases file tokens with ⟨_, split, fails⟩ |
    ⟨_, rest, split, ⟨_, cut, fails⟩ | ⟨_, _, whole⟩⟩
  · -- the directive is at fault, and it is the first token
    cases fails.symm.trans refused
    cases tokens with
    | nil => cases split
    | cons token others =>
      rw [splitDirective] at split
      split at split
      · split at split <;> cases split
        exact ⟨token, List.mem_cons_self, rfl⟩
      · cases split
  · -- a token between the items is at fault, and it stands behind the directive
    cases fails.symm.trans refused
    obtain ⟨same, _⟩ := eq_of_splitDirective split
    obtain ⟨token, member, place⟩ := Draft.exists_of_sections cut
    exact ⟨token, same ▸ List.mem_append_right _ member, place⟩
  · cases whole.symm.trans refused

/-! ## Sections and their tokens -/

/-- Sections start with the markers of their headings. -/
theorem markers_of_formed (formed : ∀ part ∈ parts, part.Formed)
    (headed : ∀ part ∈ parts, part.heading.isSome) :
    parts.map (fun part => part.heading.map Heading.marker) =
      ((parts.flatMap Section.tokens).filter Token.isHeadingMarker).map some := by
  induction parts with
  | nil => rfl
  | cons part others ih =>
    obtain ⟨here, below⟩ := List.forall_mem_cons.mp formed
    obtain ⟨first, later⟩ := List.forall_mem_cons.mp headed
    obtain ⟨heading, same⟩ := Option.isSome_iff_exists.mp first
    rw [List.map_cons, List.flatMap_cons, List.filter_append, List.map_append, ← ih below later,
      here.filter_isHeadingMarker, same]
    rfl

/-- Sections with headings hold nothing in front of the first heading. -/
theorem takeWhile_of_headed (formed : ∀ part ∈ parts, part.Formed)
    (headed : ∀ part ∈ parts, part.heading.isSome) :
    (parts.flatMap Section.tokens).takeWhile (fun token => !token.isHeadingMarker) = [] := by
  cases parts with
  | nil => rfl
  | cons part others =>
    obtain ⟨heading, same⟩ := Option.isSome_iff_exists.mp (headed part List.mem_cons_self)
    obtain ⟨marker, _⟩ := (formed part List.mem_cons_self).heading heading same
    simp [Section.tokens, Heading.tokens, same, Token.isHeadingMarker, marker]

/-- Of formed sections only the last one may be at fault, and then they end inside a fenced
block. -/
theorem failure_isSome_iff (formed : ∀ part ∈ parts, part.Formed) (faults : FaultsAtEnd parts)
    (index : Nat) (inside : index < parts.length) :
    parts[index].failure.isSome ↔
      index + 1 = parts.length ∧ EndsInFence (parts.flatMap Section.tokens) := by
  -- the sections in front of the last one hold an even number of fences
  rcases List.eq_nil_or_concat' parts with rfl | ⟨front, last, rfl⟩
  · cases inside
  have sound : ∀ part ∈ front, part.failure = none := by
    have sound := faults.others
    rwa [List.dropLast_concat] at sound
  obtain ⟨before, here⟩ := List.forall_mem_append.mp formed
  have even : Even ((front.flatMap Section.tokens).countP Token.isFenceMarker) := by
    refine even_countP_flatMap fun part member => Nat.not_odd_iff_even.mp fun odd => ?_
    rw [(before part member).odd_fences, sound part member] at odd
    cases odd
  have ends : EndsInFence ((front ++ [last]).flatMap Section.tokens) ↔ last.failure.isSome := by
    rw [EndsInFence, List.flatMap_append, List.countP_append, Nat.odd_add', List.flatMap_singleton,
      (here last List.mem_cons_self).odd_fences]
    exact iff_true_right even
  rw [ends, List.length_append, List.length_singleton]
  rcases Nat.lt_or_ge index front.length with earlier | isLast
  · rw [List.getElem_append_left earlier, sound _ (List.getElem_mem earlier)]
    simp only [Option.isSome_none, Bool.false_eq_true, false_iff, not_and]
    omega
  · obtain rfl : index = front.length := by simp at inside; omega
    simp

/-- The first of the sections that tokens are cut into is the preamble. -/
theorem exists_preamble (cut : Draft.CutInto tokens parts) :
    ∃ first headed, parts = first :: headed ∧ first.heading = none ∧
      ∀ part ∈ headed, part.heading.isSome := by
  obtain ⟨headings, shape⟩ := cut.headings
  cases parts with
  | nil => cases shape
  | cons first headed =>
    obtain ⟨none, others⟩ := List.cons.inj shape
    refine ⟨first, headed, rfl, none, fun part member => ?_⟩
    have found : part.heading ∈ headings.map some := others ▸ List.mem_map_of_mem member
    obtain ⟨heading, _, same⟩ := List.mem_map.mp found
    exact same ▸ rfl

/-- A preamble is left out if it holds nothing. -/
theorem dropEmptyPreamble_cons {first : Section} (preamble : first.heading = none)
    (headed : List Section) :
    dropEmptyPreamble (first :: headed) =
      (if first.items = [] then [] else [first]) ++ headed := by
  obtain ⟨heading, items, failure⟩ := first
  subst preamble
  cases items <;> rfl

/-- What stands in front of the first heading is held in front of the first heading. -/
theorem content_takeWhile (tokens : List Token) :
    content (tokens.takeWhile fun token => !token.isHeadingMarker) =
      (content tokens).takeWhile fun token => !token.isHeadingMarker := by
  -- a heading marker is held, so that leaving out what is not held finds no other first one
  rw [content, content, List.takeWhile_filter]
  congr 2
  funext token
  cases marker : token.isHeadingMarker with
  | false => simp
  | true =>
    have kind : token.kind = .headingMarker := by simpa [Token.isHeadingMarker] using marker
    simp [kind, TokenKind.isContent]

theorem mem_content {token : Token} (starts : token.startsItem = true) :
    token ∈ content tokens ↔ token ∈ tokens := by
  have holds : token.kind.isContent = true := by
    unfold Token.startsItem at starts
    simp only [decide_eq_true_eq] at starts
    rcases starts with kind | kind | kind <;> simp [kind, TokenKind.isContent]
  simp [content, holds]

/-- A directive is held. -/
theorem content_of_splitDirective (split : splitDirective tokens = .ok (directive, rest)) :
    content tokens = directive.toList.map Directive.token ++ content rest := by
  obtain ⟨same, shebang, _⟩ := eq_of_splitDirective split
  rw [same, content_append]
  refine congrArg (· ++ content rest) (List.filter_eq_self.mpr fun token member => ?_)
  obtain ⟨named, inside, rfl⟩ := List.mem_map.mp member
  rw [shebang named (Option.mem_toList.mp inside)]
  rfl

/-- A document holds the tokens that it is cut from. -/
theorem tokens_of_cutInto (split : splitDirective tokens = .ok (source.directive, rest))
    (cut : Draft.CutInto rest parts) (sections : source.sections = dropEmptyPreamble parts) :
    source.tokens = content tokens := by
  obtain ⟨first, headed, rfl, preamble, _⟩ := exists_preamble cut
  rw [Document.tokens, content_of_splitDirective split, sections, dropEmptyPreamble_cons preamble,
    ← cut.tokens]
  split
  · next empty => simp [Section.tokens, preamble, empty]
  · simp

/-- A token in front of the first heading starts an item if there is a preamble. -/
theorem preamble_iff {first : Section} {headed : List Section} (preamble : first.heading = none)
    (formed : ∀ part ∈ first :: headed, part.Formed)
    (headings : ∀ part ∈ headed, part.heading.isSome)
    (shebang : ∀ named ∈ directive, named.token.kind = .shebang)
    (held : content tokens = directive.toList.map Directive.token ++
      (first :: headed).flatMap Section.tokens) :
    first.items ≠ [] ↔
      ∃ token ∈ tokens.takeWhile fun token => !token.isHeadingMarker, token.startsItem := by
  obtain ⟨here, below⟩ := List.forall_mem_cons.mp formed
  have plain : ∀ token ∈ directive.toList.map Directive.token ++ first.items.flatMap Item.tokens,
      (!token.isHeadingMarker) = true := by
    refine List.forall_mem_append.mpr ⟨fun token member => ?_, fun token member => ?_⟩
    · obtain ⟨named, inside, rfl⟩ := List.mem_map.mp member
      simp [Token.isHeadingMarker, shebang named (Option.mem_toList.mp inside)]
    · obtain ⟨item, inside, within⟩ := List.mem_flatMap.mp member
      simp [(here.items item inside).isHeadingMarker token within]
  have front : content (tokens.takeWhile fun token => !token.isHeadingMarker) =
      directive.toList.map Directive.token ++ first.items.flatMap Item.tokens := by
    have tokens : first.tokens = first.items.flatMap Item.tokens := by
      simp [Section.tokens, preamble]
    rw [content_takeWhile, held, List.flatMap_cons, tokens, ← List.append_assoc,
      List.takeWhile_append_of_pos plain, takeWhile_of_headed below headings, List.append_nil]
  constructor
  · intro nonempty
    obtain ⟨item, inside⟩ := List.exists_mem_of_ne_nil _ nonempty
    obtain ⟨token, within, starts, _⟩ := (here.items item inside).exists_startsItem
    refine ⟨token, (mem_content starts).mp ?_, starts⟩
    rw [front]
    exact List.mem_append_right _ (List.mem_flatMap.mpr ⟨item, inside, within⟩)
  · rintro ⟨token, member, starts⟩ empty
    have held := (mem_content starts).mpr member
    rw [front, empty, List.flatMap_nil, List.append_nil] at held
    -- only the directive is left, which starts no item
    obtain ⟨named, inside, rfl⟩ := List.mem_map.mp held
    simp [Token.startsItem, shebang named (Option.mem_toList.mp inside)] at starts

/-- The sections hold all tokens of a kind that is held, unless it is that of directives. -/
theorem filter_sections (held : source.tokens = content tokens)
    (shebang : ∀ named ∈ source.directive, named.token.kind = .shebang) {holds : Token → Bool}
    (kinds : ∀ token : Token, holds token = true →
      token.kind.isContent = true ∧ token.kind ≠ .shebang) :
    (source.sections.flatMap Section.tokens).filter holds = tokens.filter holds := by
  have directive : (source.directive.toList.map Directive.token).filter holds = [] := by
    refine List.filter_eq_nil_iff.mpr fun token member here => ?_
    obtain ⟨named, inside, rfl⟩ := List.mem_map.mp member
    exact (kinds _ here).2 (shebang named (Option.mem_toList.mp inside))
  have content : (content tokens).filter holds = tokens.filter holds := by
    rw [content, List.filter_filter]
    refine List.filter_congr fun token _ => ?_
    cases here : holds token with
    | false => rfl
    | true => simp [(kinds token here).1]
  rw [← content, ← held, Document.tokens, List.filter_append, directive, List.nil_append]

/-- The sections end inside a fenced block if the tokens do. -/
theorem endsInFence_sections (held : source.tokens = content tokens)
    (shebang : ∀ named ∈ source.directive, named.token.kind = .shebang) :
    EndsInFence (source.sections.flatMap Section.tokens) ↔ EndsInFence tokens := by
  have same : (source.sections.flatMap Section.tokens).filter Token.isFenceMarker =
      tokens.filter Token.isFenceMarker := by
    refine filter_sections held shebang fun token fence => ?_
    have kind : token.kind = .fenceMarker := by simpa [Token.isFenceMarker] using fence
    simp [kind, TokenKind.isContent]
  rw [EndsInFence, EndsInFence, List.countP_eq_length_filter, List.countP_eq_length_filter, same]

/-- The headings among the tokens are those of the sections behind a preamble. -/
theorem markers_of_sections {front headed : List Section} (held : source.tokens = content tokens)
    (shebang : ∀ named ∈ source.directive, named.token.kind = .shebang)
    (sections : source.sections = front ++ headed)
    (formed : ∀ part ∈ source.sections, part.Formed)
    (plain : ∀ part ∈ front, part.heading = none)
    (headings : ∀ part ∈ headed, part.heading.isSome) :
    headed.map (fun part => part.heading.map Heading.marker) =
      (tokens.filter Token.isHeadingMarker).map some := by
  obtain ⟨before, behind⟩ := List.forall_mem_append.mp (sections ▸ formed)
  have same : (source.sections.flatMap Section.tokens).filter Token.isHeadingMarker =
      tokens.filter Token.isHeadingMarker := by
    refine filter_sections held shebang fun token marker => ?_
    have kind : token.kind = .headingMarker := by simpa [Token.isHeadingMarker] using marker
    simp [kind, TokenKind.isContent]
  -- the sections of the preamble have no heading and so no marker
  have none : (front.flatMap Section.tokens).filter Token.isHeadingMarker = [] := by
    refine List.filter_eq_nil_iff.mpr fun token member marker => ?_
    obtain ⟨part, inside, within⟩ := List.mem_flatMap.mp member
    have found := List.mem_filter.mpr ⟨within, marker⟩
    rw [(before part inside).filter_isHeadingMarker, plain part inside] at found
    cases found
  rw [markers_of_formed behind headings, ← same, sections, List.flatMap_append, List.filter_append,
    none, List.nil_append]

/-- Tokens, the last one and no other of which is the end of the input, are cut into a document
that loses and invents none of them, or one of them is refused. -/
theorem cutFrom_or_refused (file : String) (ends : EndsInput tokens) :
    (∃ source, ofTokens file tokens = .ok source ∧ source.CutFrom tokens) ∨
      ∃ token ∈ tokens, ∃ cause, ofTokens file tokens = .error ⟨cause, token.span⟩ := by
  cases cuts : ofTokens file tokens with
  | error diagnostic =>
    obtain ⟨token, member, place⟩ := exists_of_ofTokens cuts
    exact .inr ⟨token, member, diagnostic.cause, place ▸ rfl⟩
  | ok source =>
    refine .inl ⟨source, rfl, ?_⟩
    obtain ⟨rest, parts, split, cut, sections⟩ := exists_cutInto ends cuts
    have held := tokens_of_cutInto split cut sections
    obtain ⟨same, shebang, directive⟩ := eq_of_splitDirective split
    obtain ⟨first, headed, rfl, preamble, headings⟩ := exists_preamble cut
    have formed : ∀ part ∈ source.sections, part.Formed := fun part member =>
      cut.formed part ((dropEmptyPreamble_sublist _).subset (sections ▸ member))
    rw [dropEmptyPreamble_cons preamble] at sections
    refine ⟨held, directive, ?_, formed, fun index inside => ?_⟩
    · have starts := preamble_iff preamble cut.formed headings shebang
        ((content_of_splitDirective split).trans (congrArg _ cut.tokens.symm))
      -- the first section is left out if it has neither a heading nor items
      by_cases empty : first.items = []
      · rw [if_pos empty] at sections
        refine ⟨none, headed, sections, fun _ none => absurd none (Option.not_mem_none _), ?_,
          markers_of_sections held shebang sections formed (List.forall_mem_nil _) headings⟩
        rw [← starts]
        simp [empty]
      · rw [if_neg empty] at sections
        refine ⟨some first, headed, sections, ?_, iff_of_true rfl (starts.mp empty),
          markers_of_sections held shebang sections formed ?_ headings⟩
        · rintro part ⟨⟩
          exact ⟨preamble, empty⟩
        · exact List.forall_mem_singleton.mpr preamble
    · rw [failure_isSome_iff formed (faultsAtEnd_of_ofTokens cuts) index inside,
        endsInFence_sections held shebang]

/-- A heading, a link without a description and an open fence, at one and the same place. -/
theorem cutFrom_or_refused_openFence :
    let tokens := [TokenKind.headingMarker, .text, .newline, .listBullet, .linkOpen, .text,
      .linkClose, .newline, .fenceMarker, .endOfInput].map fun kind => ⟨kind, "", .fileStart "t"⟩
    EndsInput tokens ∧ ∃ source, ofTokens "t" tokens = .ok source ∧ source.CutFrom tokens := by
  intro tokens
  have ends : EndsInput tokens := by simp [tokens]
  refine ⟨ends, ?_⟩
  rcases cutFrom_or_refused "t" ends with cut | ⟨token, _, cause, refused⟩
  · exact cut
  · have cuts : (ofTokens "t" tokens).isOk = true := rfl
    rw [refused] at cuts
    cases cuts

end Document

end DocGrammar
