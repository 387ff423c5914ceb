import DocGrammar.Document.OfTokens

/-! # Moves of a draft

A draft is read token by token. Between items a token starts what it marks; inside of a heading or a
link one kind of token goes on; a fenced block takes up lines until it is closed. These moves are
all that a token can do, and a list of tokens becomes sections by one move after the other.

* **`Draft.Moves`**, **`Draft.step_eq_ok_iff`** — what a token does to a draft in a region.
* **`Draft.Cuts`**, **`Draft.sections_eq_ok_iff`** — what tokens are cut into, move by move.
* **`Draft.exists_of_sections`** — tokens are refused at the place of one of them. -/

namespace DocGrammar

namespace Draft

variable {draft extended : Draft} {region next : Region} {token : Token} {tokens : List Token}
  {parts : List Section} {diagnostic : Diagnostic}

/-! ## One token -/

/-- What a token does to a draft in a region: one constructor for each way to go on. -/
inductive Moves : Draft → Region → Token → Region → Draft → Prop
  /-- Line ends and comments between items are skipped. -/
  | pass {draft : Draft} {token : Token} (blank : token.kind = .newline ∨ token.kind = .comment) :
      Moves draft .prose token .prose draft
  /-- A marker starts a heading. -/
  | marker {draft : Draft} {token : Token} (kind : token.kind = .headingMarker) :
      Moves draft .prose token (.headingTitle token) draft
  /-- A fence starts a block. -/
  | fence {draft : Draft} {token : Token} (kind : token.kind = .fenceMarker) :
      Moves draft .prose token (.fence token []) draft
  /-- A line of text is added. -/
  | line {draft : Draft} {token : Token} (kind : token.kind = .line) :
      Moves draft .prose token .prose (draft.addLine token)
  /-- A hyphen starts a link. -/
  | bullet {draft : Draft} {token : Token} (kind : token.kind = .listBullet) :
      Moves draft .prose token (.linkOpening token) draft
  /-- A title completes a heading, which opens a section. -/
  | title {draft : Draft} {marker token : Token} (kind : token.kind = .text) :
      Moves draft (.headingTitle marker) token .prose (draft.openSection ⟨marker, token⟩)
  /-- The opening bracket of a link. -/
  | opening {draft : Draft} {bullet token : Token} (kind : token.kind = .linkOpen) :
      Moves draft (.linkOpening bullet) token (.linkTarget bullet) draft
  /-- The target of a link. -/
  | target {draft : Draft} {bullet token : Token} (kind : token.kind = .text) :
      Moves draft (.linkTarget bullet) token (.linkClosing bullet token) draft
  /-- The closing bracket of a link. -/
  | closing {draft : Draft} {bullet target token : Token} (kind : token.kind = .linkClose) :
      Moves draft (.linkClosing bullet target) token (.linkDescription bullet target) draft
  /-- A description completes a link. -/
  | description {draft : Draft} {bullet target token : Token} (kind : token.kind = .text) :
      Moves draft (.linkDescription bullet target) token .prose
        (draft.addItem (.link ⟨bullet, target, some token⟩))
  /-- Without a description a link is complete in front of the next token, which is read between
  items. -/
  | bare {draft extended : Draft} {bullet target token : Token} {next : Region}
      (other : token.kind ≠ .text)
      (moves : Moves (draft.addItem (.link ⟨bullet, target, none⟩)) .prose token next extended) :
      Moves draft (.linkDescription bullet target) token next extended
  /-- A line of code is taken up. -/
  | code {draft : Draft} {opener token : Token} {lines : List Token}
      (kind : token.kind = .codeLine) :
      Moves draft (.fence opener lines) token (.fence opener (lines ++ [token])) draft
  /-- The end of the row that opens a block is skipped. -/
  | feed {draft : Draft} {opener token : Token} {lines : List Token}
      (kind : token.kind = .newline) :
      Moves draft (.fence opener lines) token (.fence opener lines) draft
  /-- A fence completes a block. -/
  | close {draft : Draft} {opener token : Token} {lines : List Token}
      (kind : token.kind = .fenceMarker) :
      Moves draft (.fence opener lines) token .prose
        (draft.addItem (.fenced ⟨opener, lines, some token⟩))

/-- The end of the input moves no draft. -/
theorem Moves.kind_ne (moves : Moves draft region token next extended) :
    token.kind ≠ .endOfInput := by
  induction moves with
  | pass blank =>
    rcases blank with kind | kind <;> rw [kind] <;> exact TokenKind.noConfusion
  | bare _ _ ih => exact ih
  | _ =>
    next kind =>
    rw [kind]
    exact TokenKind.noConfusion

theorem moves_of_proseStep (stepped : draft.proseStep token = .ok (next, extended)) :
    Moves draft .prose token next extended := by
  unfold proseStep at stepped
  split at stepped
  · next kind => cases stepped; exact .pass (.inl kind)
  · next kind => cases stepped; exact .pass (.inr kind)
  · next kind => cases stepped; exact .marker kind
  · next kind => cases stepped; exact .fence kind
  · next kind => cases stepped; exact .line kind
  · next kind => cases stepped; exact .bullet kind
  · cases stepped

theorem moves_of_step (stepped : draft.step token region = .ok (next, extended)) :
    Moves draft region token next extended := by
  cases region with
  | prose => exact moves_of_proseStep stepped
  | headingTitle marker =>
    simp only [step] at stepped
    split at stepped <;> cases stepped
    next kind => exact .title kind
  | linkOpening bullet =>
    simp only [step] at stepped
    split at stepped <;> cases stepped
    next kind => exact .opening kind
  | linkTarget bullet =>
    simp only [step] at stepped
    split at stepped <;> cases stepped
    next kind => exact .target kind
  | linkClosing bullet target =>
    simp only [step] at stepped
    split at stepped <;> cases stepped
    next kind => exact .closing kind
  | linkDescription bullet target =>
    simp only [step] at stepped
    split at stepped
    · next kind => cases stepped; exact .description kind
    · -- a link without description ends where a token of the prose stands
      next other => exact .bare other (moves_of_proseStep stepped)
  | fence opener lines =>
    simp only [step] at stepped
    split at stepped
    · next kind => cases stepped; exact .code kind
    · next kind => cases stepped; exact .feed kind
    · next kind => cases stepped; exact .close kind
    · cases stepped

/-- The moves are what the tokens do. -/
theorem step_eq_ok_iff :
    draft.step token region = .ok (next, extended) ↔ Moves draft region token next extended := by
  refine ⟨moves_of_step, fun moves => ?_⟩
  induction moves with
  | pass blank => rcases blank with kind | kind <;> rw [step, proseStep, kind]
  | marker kind | fence kind | line kind | bullet kind => rw [step, proseStep, kind]
  | title kind | opening kind | target kind | closing kind | description kind =>
    rw [step, if_pos kind]
  | bare other _ ih => rw [step, if_neg other]; exact ih
  | code kind | feed kind | close kind =>
    rw [step]
    simp only [kind]

/-- A token is refused at its own place. -/
theorem span_of_step (refused : draft.step token region = .error diagnostic) :
    diagnostic.span = token.span := by
  have prose : ∀ {draft : Draft}, draft.proseStep token = .error diagnostic →
      diagnostic.span = token.span := by
    intro draft refused
    unfold proseStep at refused
    split at refused <;> cases refused
    rfl
  cases region <;> simp only [step] at refused
  case prose => exact prose refused
  case linkDescription =>
    split at refused
    · cases refused
    · exact prose refused
  all_goals
    split at refused <;> cases refused
    rfl

/-! ## Tokens one after the other -/

/-- What tokens behind a draft are cut into. -/
inductive Cuts : Draft → Region → List Token → List Section → Prop
  /-- There are no tokens left. -/
  | out {draft : Draft} {region : Region} :
      Cuts draft region [] (draft.complete ++ (draft.lastSection? region).toList)
  /-- The input ends where a document may end. -/
  | finish {draft : Draft} {region : Region} {token : Token} {rest : List Token} {last : Section}
      (ends : token.kind = .endOfInput) (found : draft.lastSection? region = some last) :
      Cuts draft region (token :: rest) (draft.complete ++ [last])
  /-- A token moves the draft. -/
  | move {draft extended : Draft} {region next : Region} {token : Token} {rest : List Token}
      {parts : List Section} (moves : Moves draft region token next extended)
      (behind : Cuts extended next rest parts) : Cuts draft region (token :: rest) parts

theorem cuts_of_sections (read : draft.sections region tokens = .ok parts) :
    Cuts draft region tokens parts := by
  induction tokens generalizing draft region with
  | nil =>
    cases read
    exact .out
  | cons token rest ih =>
    rw [sections] at read
    split at read
    · next last found =>
      cases read
      split at found
      · next ends => exact .finish ends found
      · cases found
    · cases stepped : draft.step token region with
      | error diagnostic =>
        rw [stepped] at read
        cases read
      | ok behind =>
        rw [stepped] at read
        exact .move (moves_of_step stepped) (ih read)

/-- Tokens become sections by moves. -/
theorem sections_eq_ok_iff :
    draft.sections region tokens = .ok parts ↔ Cuts draft region tokens parts := by
  refine ⟨cuts_of_sections, fun cuts => ?_⟩
  induction cuts with
  | out => rfl
  | finish ends found => rw [sections, if_pos ends, found]
  | move moves _ ih =>
    rw [sections, if_neg moves.kind_ne, step_eq_ok_iff.mpr moves]
    exact ih

/-- Tokens are refused at the place of one of them. -/
theorem exists_of_sections (refused : draft.sections region tokens = .error diagnostic) :
    ∃ token ∈ tokens, diagnostic.span = token.span := by
  induction tokens generalizing draft region with
  | nil => cases refused
  | cons token rest ih =>
    rw [sections] at refused
    split at refused
    · cases refused
    · cases stepped : draft.step token region with
      | error fault =>
        rw [stepped] at refused
        cases refused
        exact ⟨token, List.mem_cons_self, span_of_step stepped⟩
      | ok behind =>
        rw [stepped] at refused
        obtain ⟨found, member, same⟩ := ih refused
        exact ⟨found, List.mem_cons_of_mem _ member, same⟩

end Draft

end DocGrammar
