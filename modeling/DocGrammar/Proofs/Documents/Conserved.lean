import DocGrammar.Proofs.Documents.Sections
import DocGrammar.Proofs.Rules.Outcome
import Mathlib.Data.List.Chain

/-! # Cutting a document loses and invents nothing

The sections of a document hold the tokens that it was cut from, in their order, without line ends,
comments, the brackets of links and the end of the input. What is held back while a heading, a link
or a fenced block is being read counts as read, so that every token keeps this balance.

* **`Section.tokens`** — the tokens that a section holds.
* **`Section.Formed`** — how the tokens of a section fit together.
* **`Draft.Keeps`**, **`Draft.Keeps.moves`** — the balance, and that every token keeps it.
* **`Draft.CutInto`**, **`Draft.Keeps.cutInto_cuts`** — the sections that tokens are cut into. -/

namespace DocGrammar

/-! ## The tokens that are held -/

/-- Whether tokens of a kind are held by the document that is cut from them. -/
def TokenKind.isContent : TokenKind → Bool
  | .newline | .comment | .linkOpen | .linkClose | .endOfInput => false
  | _ => true

/-- The tokens that a document holds of those it is cut from. -/
def content (tokens : List Token) : List Token := tokens.filter fun token => token.kind.isContent

/-- The tokens of a heading. -/
def Heading.tokens (heading : Heading) : List Token := [heading.marker, heading.title]

/-- The tokens of a fenced block. -/
def FencedBlock.tokens (block : FencedBlock) : List Token :=
  block.opener :: (block.lines ++ block.closer.toList)

/-- The tokens of a link. -/
def ContextLink.tokens (link : ContextLink) : List Token :=
  link.bullet :: link.target :: link.description.toList

/-- The tokens of an item. -/
def Item.tokens : Item → List Token
  | .text block => block.lines
  | .fenced block => block.tokens
  | .link context => context.tokens

/-- The tokens of a section: those of its heading and those of its items. -/
def Section.tokens (part : Section) : List Token :=
  part.heading.toList.flatMap Heading.tokens ++ part.items.flatMap Item.tokens

/-- The tokens of a document: its directive and those of its sections. -/
def Document.tokens (source : Document) : List Token :=
  source.directive.toList.map Directive.token ++ source.sections.flatMap Section.tokens

/-- The tokens that a region holds back until what it is inside of is complete. -/
def Region.tokens : Region → List Token
  | .prose => []
  | .headingTitle marker => [marker]
  | .linkOpening bullet | .linkTarget bullet => [bullet]
  | .linkClosing bullet target | .linkDescription bullet target => [bullet, target]
  | .fence opener lines => opener :: lines

/-- The tokens that are read last are held. -/
theorem content_append (read more : List Token) :
    content (read ++ more) = content read ++ content more :=
  List.filter_append _ _

theorem content_cons {token : Token} (holds : token.kind.isContent = true) (tokens : List Token) :
    content (token :: tokens) = token :: content tokens :=
  List.filter_cons_of_pos holds

theorem content_concat {token : Token} (holds : token.kind.isContent = true) (read : List Token) :
    content (read ++ [token]) = content read ++ [token] := by
  rw [content_append, content_cons holds]
  rfl

theorem content_concat_blank {token : Token} (blank : token.kind.isContent = false)
    (read : List Token) : content (read ++ [token]) = content read := by
  simp [content, blank]

/-! ## How tokens fit together -/

/-- Whether the tokens of an item are of its kinds, and its lines of text follow one another. -/
inductive Item.Formed : Item → Prop
  /-- Lines of text. -/
  | text {block : TextBlock} (kinds : ∀ line ∈ block.lines, line.kind = .line)
      (consecutive : block.lines.IsChain fun above below => below.line = above.line + 1) :
    Formed (.text block)
  /-- A fenced block. -/
  | fenced {block : FencedBlock} (opener : block.opener.kind = .fenceMarker)
      (lines : ∀ line ∈ block.lines, line.kind = .codeLine)
      (closer : ∀ token ∈ block.closer, token.kind = .fenceMarker) : Formed (.fenced block)
  /-- A link. -/
  | link {link : ContextLink} (bullet : link.bullet.kind = .listBullet)
      (target : link.target.kind = .text)
      (description : ∀ token ∈ link.description, token.kind = .text) : Formed (.link link)

/-- Whether an item is a fenced block that nothing closes. -/
def Item.isOpen : Item → Bool
  | .fenced block => block.closer.isNone
  | _ => false

/-- Whether an item is no text block that goes on with the text block `above`. -/
def Item.Apart (above below : Item) : Prop :=
  ∀ first second, above = .text first → below = .text second →
    second.first.line ≠ first.last.line + 1

/-- How the tokens of a section fit together. -/
structure Section.Formed (part : Section) : Prop where
  /-- The heading is a marker and a title. -/
  heading : ∀ heading ∈ part.heading,
    heading.marker.kind = .headingMarker ∧ heading.title.kind = .text
  /-- The items are formed. -/
  items : ∀ item ∈ part.items, item.Formed
  /-- No text block goes on with the one before it. -/
  apart : part.items.IsChain Item.Apart
  /-- The fenced blocks of a section that is not at fault are closed. -/
  closed : part.failure = none → ∀ item ∈ part.items, item.isOpen = false
  /-- A section at fault ends with an open fence, and there is no other one. -/
  fault : ∀ diagnostic, part.failure = some diagnostic → ∃ before opener lines,
    part.items = before ++ [.fenced ⟨opener, lines, none⟩] ∧
      (∀ item ∈ before, item.isOpen = false) ∧ diagnostic.span = opener.span

/-- Whether the tokens that a region holds back are of the kinds that it has seen. -/
def Region.Formed : Region → Prop
  | .prose => True
  | .headingTitle marker => marker.kind = .headingMarker
  | .linkOpening bullet | .linkTarget bullet => bullet.kind = .listBullet
  | .linkClosing bullet target | .linkDescription bullet target =>
    bullet.kind = .listBullet ∧ target.kind = .text
  | .fence opener lines => opener.kind = .fenceMarker ∧ ∀ line ∈ lines, line.kind = .codeLine

variable {heading : Option Heading} {items : List Item} {item : Item} {block : TextBlock}
  {line token : Token}

/-- An item that is no text block stands apart from any other. -/
theorem Item.apart_of_ne_text {above below : Item} (other : ∀ block, below ≠ .text block) :
    Item.Apart above below :=
  fun _ second _ same => absurd same (other second)

/-- A section may be given one more item. -/
theorem Section.Formed.concat (formed : Section.Formed ⟨heading, items, none⟩) (fits : item.Formed)
    (closed : item.isOpen = false) (apart : ∀ last ∈ items.getLast?, Item.Apart last item) :
    Section.Formed ⟨heading, items ++ [item], none⟩ := by
  refine ⟨formed.heading, List.forall_mem_append.mpr ⟨formed.items, ?_⟩,
    List.isChain_append.mpr ⟨formed.apart, List.isChain_singleton item, ?_⟩,
    fun _ => List.forall_mem_append.mpr ⟨formed.closed rfl, ?_⟩,
    fun _ fault => absurd fault.symm (Option.some_ne_none _)⟩
  · exact List.forall_mem_singleton.mpr fits
  · intro last member other here
    obtain rfl : item = other := by simpa using here
    exact apart last member
  · exact List.forall_mem_singleton.mpr closed

/-- A text block at the end of a section may be given the line below it. -/
theorem Section.Formed.push (formed : Section.Formed ⟨heading, items ++ [.text block], none⟩)
    (kind : line.kind = .line) (below : block.last.line = line.line - 1) :
    Section.Formed ⟨heading, items ++ [.text (block.push line)], none⟩ := by
  obtain ⟨others, last⟩ := List.forall_mem_append.mp formed.items
  obtain ⟨front, _, between⟩ := List.isChain_append.mp formed.apart
  have open' := (List.forall_mem_append.mp (formed.closed rfl)).1
  cases last _ List.mem_cons_self with
  | text kinds consecutive =>
  have next : (block.push line).lines.IsChain fun above below => below.line = above.line + 1 := by
    rw [TextBlock.lines_push]
    refine List.isChain_append.mpr ⟨consecutive, List.isChain_singleton line, ?_⟩
    intro above isLast other here
    obtain rfl : line = other := by simpa using here
    -- the last of the lines is the one above
    have same : above = block.last := by
      unfold TextBlock.lines at isLast
      rw [List.getLast?_cons, Option.mem_some_iff] at isLast
      exact isLast.symm
    rw [same, below]
    omega
  refine ⟨formed.heading, List.forall_mem_append.mpr ⟨others, ?_⟩,
    List.isChain_append.mpr ⟨front, List.isChain_singleton _, ?_⟩,
    fun _ => List.forall_mem_append.mpr ⟨open', ?_⟩,
    fun _ fault => absurd fault.symm (Option.some_ne_none _)⟩
  · refine List.forall_mem_singleton.mpr (.text ?_ next)
    rw [TextBlock.lines_push]
    exact List.forall_mem_append.mpr ⟨kinds, List.forall_mem_singleton.mpr kind⟩
  · intro above isLast other here first second isFirst isSecond
    obtain rfl : .text (block.push line) = other := by simpa using here
    obtain rfl : block.push line = second := Item.text.inj isSecond
    exact between above isLast (.text block) rfl first block isFirst rfl
  · exact List.forall_mem_singleton.mpr rfl

/-- A section may end inside a fenced block. -/
theorem Section.Formed.leaveOpen {opener : Token} {lines : List Token}
    (formed : Section.Formed ⟨heading, items, none⟩) (kind : opener.kind = .fenceMarker)
    (kinds : ∀ line ∈ lines, line.kind = .codeLine) :
    Section.Formed ⟨heading, items ++ [.fenced ⟨opener, lines, none⟩],
      some ⟨.unterminatedFence, opener.span⟩⟩ := by
  refine ⟨formed.heading, List.forall_mem_append.mpr ⟨formed.items, ?_⟩,
    List.isChain_append.mpr ⟨formed.apart, List.isChain_singleton _, ?_⟩,
    fun sound => absurd sound (Option.some_ne_none _), ?_⟩
  · refine List.forall_mem_singleton.mpr (.fenced kind kinds fun _ none => ?_)
    exact absurd none (Option.not_mem_none _)
  · intro last member other here
    obtain rfl : .fenced ⟨opener, lines, none⟩ = other := by simpa using here
    exact Item.apart_of_ne_text fun _ => Item.noConfusion
  · intro diagnostic same
    exact ⟨items, opener, lines, rfl, formed.closed rfl, Option.some.inj same ▸ rfl⟩

/-! ## The balance -/

namespace Draft

/-- The section that is being read. -/
def current (draft : Draft) : Section := ⟨draft.heading, draft.items, none⟩

/-- The sections read so far, with the one that is being read. -/
def parts (draft : Draft) : List Section := draft.complete ++ [draft.current]

/-- What holds of the draft and the region behind some tokens. -/
structure Keeps (read : List Token) (draft : Draft) (region : Region) : Prop where
  /-- What is read is held by the sections or held back. -/
  tokens : draft.parts.flatMap Section.tokens ++ region.tokens = content read
  /-- What is held back is formed. -/
  region : region.Formed
  /-- The sections are formed. -/
  parts : ∀ part ∈ draft.parts, part.Formed
  /-- Every section but the preamble has a heading. -/
  headings : ∃ headings : List Heading,
    draft.parts.map Section.heading = none :: headings.map some

variable {read later more : List Token} {draft extended : Draft} {region next : Region}

theorem current_mem_parts (draft : Draft) : draft.current ∈ draft.parts :=
  List.mem_append_right _ (List.mem_singleton_self _)

/-- The balance holds behind more tokens that are held by the items or held back. -/
theorem Keeps.extend (keeps : Keeps read draft region) (all : content later = content read ++ more)
    (tokens : items.flatMap Item.tokens ++ next.tokens =
      draft.items.flatMap Item.tokens ++ region.tokens ++ more)
    (formed : Section.Formed ⟨draft.heading, items, none⟩) (stands : next.Formed) :
    Keeps later { draft with items := items } next := by
  refine ⟨?_, stands, ?_, ?_⟩
  · rw [all, ← keeps.tokens]
    simp only [Draft.parts, Draft.current, Section.tokens, List.flatMap_append, List.flatMap_cons,
      List.flatMap_nil, List.append_nil, List.append_assoc] at tokens ⊢
    rw [tokens]
  · refine List.forall_mem_append.mpr ⟨?_, List.forall_mem_singleton.mpr formed⟩
    exact fun part member => keeps.parts part (List.mem_append_left _ member)
  · obtain ⟨headings, shape⟩ := keeps.headings
    refine ⟨headings, ?_⟩
    simpa only [Draft.parts, Draft.current, List.map_append, List.map_cons] using shape

/-- A token that is not held may change the region. -/
theorem Keeps.pass (keeps : Keeps read draft region) (blank : token.kind.isContent = false)
    (same : next.tokens = region.tokens) (stands : next.Formed) :
    Keeps (read ++ [token]) draft next := by
  have all : content (read ++ [token]) = content read ++ [] := by
    rw [content_concat_blank blank, List.append_nil]
  refine keeps.extend all ?_ (keeps.parts _ draft.current_mem_parts) stands
  rw [same, List.append_nil]

/-- A token may be held back behind others. -/
theorem Keeps.hold (keeps : Keeps read draft region) (holds : token.kind.isContent = true)
    (back : next.tokens = region.tokens ++ [token]) (stands : next.Formed) :
    Keeps (read ++ [token]) draft next := by
  refine keeps.extend (content_concat holds read) ?_ (keeps.parts _ draft.current_mem_parts) stands
  rw [back, List.append_assoc]

/-- An item that is complete joins the section. -/
theorem Keeps.settle (keeps : Keeps read draft region) (all : content later = content read ++ more)
    (back : item.tokens = region.tokens ++ more) (fits : item.Formed)
    (closed : item.isOpen = false) (other : ∀ block, item ≠ .text block) :
    Keeps later (draft.addItem item) .prose := by
  have formed := (keeps.parts _ draft.current_mem_parts).concat fits closed
    fun _ _ => Item.apart_of_ne_text other
  refine keeps.extend all ?_ formed trivial
  simp only [List.flatMap_append, List.flatMap_cons, List.flatMap_nil, List.append_nil, back,
    Region.tokens, List.append_assoc]

/-- A line of text joins the text block above it or starts a new one. -/
theorem Keeps.addLine (keeps : Keeps read draft .prose) (kind : line.kind = .line) :
    Keeps (read ++ [line]) (draft.addLine line) .prose := by
  have formed : Section.Formed ⟨draft.heading, draft.items, none⟩ :=
    keeps.parts _ draft.current_mem_parts
  have all : content (read ++ [line]) = content read ++ [line] :=
    content_concat (by rw [kind]; rfl) read
  have alone : (Item.text ⟨line, []⟩).Formed :=
    .text (List.forall_mem_singleton.mpr kind) (List.isChain_singleton line)
  have starts : (∀ above ∈ draft.items.getLast?, Item.Apart above (.text ⟨line, []⟩)) →
      Keeps (read ++ [line]) (draft.addItem (.text ⟨line, []⟩)) .prose := by
    intro apart
    refine keeps.extend all ?_ (formed.concat alone rfl apart) trivial
    simp [Region.tokens, Item.tokens, TextBlock.lines]
  unfold Draft.addLine
  split
  · next block last =>
    split
    · next below =>
      -- the line belongs to the block that stands last
      have split : draft.items.dropLast ++ [.text block] = draft.items :=
        List.dropLast_append_getLast? _ last
      have pushed : Section.Formed
          ⟨draft.heading, draft.items.dropLast ++ [.text (block.push line)], none⟩ := by
        rw [← split] at formed
        exact formed.push kind below
      refine keeps.extend all ?_ pushed trivial
      have tokens : draft.items.flatMap Item.tokens =
          draft.items.dropLast.flatMap Item.tokens ++ block.lines := by
        conv_lhs => rw [← split]
        simp [Item.tokens]
      simp [tokens, Region.tokens, Item.tokens]
    · next apart =>
      refine starts fun above member first second isFirst isSecond joins => apart ?_
      obtain rfl : Item.text block = above := by rw [last] at member; exact Option.some.inj member
      obtain rfl := Item.text.inj isFirst
      obtain rfl := Item.text.inj isSecond
      have joins : line.line = block.last.line + 1 := joins
      omega
  · next other =>
    refine starts fun above member first second isFirst isSecond => ?_
    exact absurd (isFirst ▸ member) (other first)

/-- A title completes a heading, which opens a section. -/
theorem Keeps.openSection {marker : Token} (keeps : Keeps read draft (.headingTitle marker))
    (kind : token.kind = .text) :
    Keeps (read ++ [token]) (draft.openSection ⟨marker, token⟩) .prose := by
  have split : (draft.openSection ⟨marker, token⟩).parts =
      draft.parts ++ [⟨some ⟨marker, token⟩, [], none⟩] := by
    simp [Draft.parts, Draft.current, Draft.openSection]
  refine ⟨?_, trivial, ?_, ?_⟩
  · rw [split, content_concat (by rw [kind]; rfl) read, ← keeps.tokens]
    simp [Section.tokens, Heading.tokens, Region.tokens]
  · rw [split]
    refine List.forall_mem_append.mpr ⟨keeps.parts, List.forall_mem_singleton.mpr ?_⟩
    refine ⟨?_, List.forall_mem_nil _, List.isChain_nil, fun _ => List.forall_mem_nil _, ?_⟩
    · intro heading same
      obtain rfl := Option.some.inj same
      exact ⟨keeps.region, kind⟩
    · exact fun _ fault => absurd fault.symm (Option.some_ne_none _)
  · obtain ⟨headings, shape⟩ := keeps.headings
    refine ⟨headings ++ [⟨marker, token⟩], ?_⟩
    rw [split, List.map_append, shape]
    simp

/-- A link without a description is complete in front of the next token. -/
theorem Keeps.endLink {bullet target : Token}
    (keeps : Keeps read draft (.linkDescription bullet target)) :
    Keeps read (draft.addItem (.link ⟨bullet, target, none⟩)) .prose :=
  keeps.settle (List.append_nil _).symm rfl
    (.link keeps.region.1 keeps.region.2 fun _ none => absurd none (Option.not_mem_none _))
    rfl fun _ => Item.noConfusion

/-- A token keeps the balance, whatever region it stands in. -/
theorem Keeps.moves (keeps : Keeps read draft region)
    (moves : Moves draft region token next extended) : Keeps (read ++ [token]) extended next := by
  induction moves with
  | pass blank =>
    refine keeps.pass ?_ rfl trivial
    rcases blank with kind | kind <;> rw [kind] <;> rfl
  | marker kind => exact keeps.hold (by rw [kind]; rfl) rfl kind
  | fence kind => exact keeps.hold (by rw [kind]; rfl) rfl ⟨kind, List.forall_mem_nil _⟩
  | line kind => exact keeps.addLine kind
  | bullet kind => exact keeps.hold (by rw [kind]; rfl) rfl kind
  | title kind => exact keeps.openSection kind
  | opening kind => exact keeps.pass (by rw [kind]; rfl) rfl keeps.region
  | target kind => exact keeps.hold (by rw [kind]; rfl) rfl ⟨keeps.region, kind⟩
  | closing kind => exact keeps.pass (by rw [kind]; rfl) rfl keeps.region
  | description kind =>
    refine keeps.settle (content_concat (by rw [kind]; rfl) read) rfl ?_ rfl
      fun _ => Item.noConfusion
    exact .link keeps.region.1 keeps.region.2 fun token found => Option.some.inj found ▸ kind
  -- the link ends before the token, which then moves the prose
  | bare _ _ ih => exact ih keeps.endLink
  | code kind =>
    refine keeps.hold (by rw [kind]; rfl) rfl ⟨keeps.region.1, ?_⟩
    exact List.forall_mem_append.mpr ⟨keeps.region.2, List.forall_mem_singleton.mpr kind⟩
  | feed kind => exact keeps.pass (by rw [kind]; rfl) rfl keeps.region
  | close kind =>
    refine keeps.settle (content_concat (by rw [kind]; rfl) read) rfl ?_ rfl
      fun _ => Item.noConfusion
    exact .fenced keeps.region.1 keeps.region.2 fun token found => Option.some.inj found ▸ kind

/-! ## The end of the input -/

/-- Tokens that are cut into sections. The first section has no heading and may hold nothing. -/
structure CutInto (tokens : List Token) (parts : List Section) : Prop where
  /-- The sections hold the tokens. -/
  tokens : parts.flatMap Section.tokens = content tokens
  /-- The sections are formed. -/
  formed : ∀ part ∈ parts, part.Formed
  /-- Every section but the first has a heading. -/
  headings : ∃ headings : List Heading, parts.map Section.heading = none :: headings.map some

variable {tokens : List Token} {parts : List Section}

/-- Nothing is held back between items. -/
theorem Keeps.cutInto_prose (keeps : Keeps read draft .prose) : CutInto read draft.parts :=
  ⟨(List.append_nil _).symm.trans keeps.tokens, keeps.parts, keeps.headings⟩

/-- Where a document may end, its sections hold what was read. -/
theorem Keeps.cutInto {last : Section} (keeps : Keeps read draft region)
    (found : draft.lastSection? region = some last) : CutInto read (draft.complete ++ [last]) := by
  cases region with
  | prose =>
    cases found
    exact keeps.cutInto_prose
  | linkDescription bullet target =>
    cases found
    exact keeps.endLink.cutInto_prose
  -- an open fence is the one region that leaves its section with a failure
  | fence opener lines =>
    cases found
    have formed : Section.Formed ⟨draft.heading, draft.items, none⟩ :=
      keeps.parts _ draft.current_mem_parts
    refine ⟨?_, List.forall_mem_append.mpr ⟨?_, List.forall_mem_singleton.mpr ?_⟩, ?_⟩
    · rw [← keeps.tokens]
      simp [Draft.parts, Draft.current, Section.tokens, Item.tokens, FencedBlock.tokens,
        Region.tokens]
    · exact fun part member => keeps.parts part (List.mem_append_left _ member)
    · exact formed.leaveOpen keeps.region.1 keeps.region.2
    · simpa only [Draft.parts, Draft.current, List.map_append, List.map_cons] using keeps.headings
  | _ => cases found

/-- The end of the input is not held. -/
theorem CutInto.concat {last : Token} (cut : CutInto tokens parts)
    (ends : last.kind = .endOfInput) : CutInto (tokens ++ [last]) parts :=
  ⟨cut.tokens.trans (content_concat_blank (by rw [ends]; rfl) tokens).symm, cut.formed,
    cut.headings⟩

/-- The sections that a balanced draft ends with hold all tokens. -/
theorem Keeps.cutInto_cuts (keeps : Keeps read draft region) (ends : EndsInput tokens)
    (cuts : Cuts draft region tokens parts) : CutInto (read ++ tokens) parts := by
  -- the balance goes from token to token, so that what is read varies with the draft
  induction cuts generalizing read with
  | out => exact ends.elim
  | finish isLast found =>
    rw [ends.eq_nil isLast]
    exact (keeps.cutInto found).concat isLast
  | @move draft extended region next token rest parts moves _ ih =>
    -- the last token ends the input, which no move does
    have inner : rest ≠ [] := by
      rintro rfl
      exact moves.kind_ne ends
    have split : token :: rest = [token] ++ rest := rfl
    rw [List.append_cons]
    exact ih (keeps.moves moves) ((split ▸ ends).of_append inner)

/-- The draft before the first token keeps the balance. -/
theorem keeps_empty : Keeps [] Draft.empty .prose := by
  refine ⟨rfl, trivial, ?_, [], rfl⟩
  refine List.forall_mem_singleton.mpr ⟨?_, List.forall_mem_nil _, List.isChain_nil,
    fun _ => List.forall_mem_nil _, ?_⟩
  · exact fun _ none => absurd none (Option.not_mem_none _)
  · exact fun _ fault => absurd fault.symm (Option.some_ne_none _)

end Draft

end DocGrammar
