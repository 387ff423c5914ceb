import DocGrammar.Proofs.Documents.Run
import DocGrammar.Proofs.Documents.Stages
import DocGrammar.Proofs.Types.Completeness
import DocGrammar.Proofs.Types.Soundness

/-! # The type parser accepts exactly its grammar

* **`TypeExpr.complete_accepts_exactly`** — a list of tokens is accepted as a whole type exactly if
  it has a derivation that the depth limit admits. -/

namespace DocGrammar

open RuleState

namespace TypeExpr

variable {tokens : List Token} {nesting : Nesting}

/-- A text that has a derivation is accepted with the tree of that derivation. -/
theorem exists_complete_of_form (form : WholeTypeForm) (derives : form.tokens = tokens)
    (nest : form.type.nest ≤ nesting.room) :
    ∃ final, complete (facing [] tokens nesting) = .ok form.type.node final := by
  have reads := form.reads (Nat.le_refl form.type.nest)
  obtain ⟨node, rfl, outcome⟩ := reads.exists_ok (List.cons_ne_nil _ _) [] nesting nest
  rw [← derives, WholeTypeForm.tokens]
  simp only [List.append_assoc] at outcome
  exact ⟨_, outcome⟩

/-- A text that is accepted has a derivation with its tree. -/
theorem exists_form_of_complete (ends : EndsInput tokens) {node : Node} {final : RuleState}
    (accepts : complete (facing [] tokens nesting) = .ok node final) :
    ∃ form : WholeTypeForm, form.tokens = tokens ∧ form.type.node = node ∧
      form.type.nest ≤ nesting.room := by
  have nonempty : tokens ≠ [] := ends.ne_nil
  have ensured := ensures_complete (facing [] tokens nesting)
    (by rw [rest_facing nonempty]; exact ends)
  unfold Rule.Ensures at ensured
  rw [accepts, rest_facing nonempty, nesting_facing] at ensured
  exact ensured

/-- A text that is not accepted is refused with an error about types or about the depth. -/
theorem exists_diagnostic_of_complete (ends : EndsInput tokens) {failure : Failure}
    {final : RuleState} (refuses : complete (facing [] tokens nesting) = .error failure final) :
    ∃ diagnostic, failure = .refused diagnostic ∧
      (diagnostic.kind = .typing ∨ diagnostic.kind = .depth) := by
  have nonempty : tokens ≠ [] := ends.ne_nil
  have ensured := ensures_complete (facing [] tokens nesting)
    (by rw [rest_facing nonempty]; exact ends)
  unfold Rule.Ensures at ensured
  rw [refuses] at ensured
  obtain ⟨_, cause, span, rfl, allowed⟩ := ensured
  exact ⟨_, rfl, allowed⟩

/-- On tokens without comments a walk runs the rule of whole texts as it is. -/
theorem run_complete (nonempty : tokens ≠ [])
    (uncommented : ∀ token ∈ tokens, token.kind ≠ .comment)
    (session : Session) :
    (WalkM.runRule complete tokens).run () session =
      match complete (facing [] tokens session.nesting) with
      | .ok node final => .ok node { session with nesting := final.nesting }
      | .error failure final => .error failure { session with nesting := final.nesting } := by
  have seen := WalkM.seen_eq_self uncommented
  rw [WalkM.run_eq, WalkM.runRule_eq complete (by rw [seen]; exact nonempty), seen]
  cases complete (facing [] tokens session.nesting) <;> rfl

/-- On tokens that end with the input and hold no comment, under a limit that admits some nesting,
the rule of whole texts accepts exactly what the grammar derives without exceeding the limit. The
derivation is unique, it determines the tree, and whatever has none is refused with an error about
types or about the depth. -/
theorem complete_accepts_exactly (file : String) (limit : Int) (positive : 1 ≤ limit)
    (tokens : List Token) (ends : EndsInput tokens)
    (uncommented : ∀ token ∈ tokens, token.kind ≠ .comment) :
    ∃ session, Session.start file limit = .ok session ∧
      (∀ node, (∃ final, (WalkM.runRule complete tokens).run () session = .ok node final) ↔
        ∃ form : WholeTypeForm, form.tokens = tokens ∧ form.type.node = node ∧
          (form.type.nest : Int) ≤ limit) ∧
      (∀ first second : WholeTypeForm, first.tokens = tokens → second.tokens = tokens →
        first = second) ∧
      (∀ failure final, (WalkM.runRule complete tokens).run () session = .error failure final →
        ∃ diagnostic, failure = .refused diagnostic ∧
          (diagnostic.kind = .typing ∨ diagnostic.kind = .depth)) := by
  -- Both the accepted tree and the refusal are those of the rule itself.
  have runs := run_complete ends.ne_nil uncommented ⟨file, ⟨limit.toNat, 0⟩, [], []⟩
  refine ⟨_, Session.start_of_positive file positive, ?_, ?_, ?_⟩
  · intro node
    rw [runs]
    constructor
    · rintro ⟨final, accepts⟩
      cases outcome : complete (facing [] tokens ⟨limit.toNat, 0⟩) with
      | ok found state =>
        rw [outcome] at accepts
        cases accepts
        obtain ⟨form, derives, rfl, nest⟩ := exists_form_of_complete ends outcome
        simp only [Nesting.room] at nest
        exact ⟨form, derives, rfl, by omega⟩
      | error failure state =>
        rw [outcome] at accepts
        cases accepts
    · rintro ⟨form, derives, rfl, nest⟩
      have enough : form.type.nest ≤ (⟨limit.toNat, 0⟩ : Nesting).room := by
        simp only [Nesting.room]
        omega
      obtain ⟨final, outcome⟩ := exists_complete_of_form form derives enough
      rw [outcome]
      exact ⟨_, rfl⟩
  · intro first second derives derives'
    exact WholeTypeForm.tokens_injective (derives.trans derives'.symm)
  · intro failure final refuses
    rw [runs] at refuses
    cases outcome : complete (facing [] tokens ⟨limit.toNat, 0⟩) with
    | ok found state =>
      rw [outcome] at refuses
      cases refuses
    | error fault state =>
      rw [outcome] at refuses
      cases refuses
      exact exists_diagnostic_of_complete ends outcome

/-- The tokens of `{a: b[]}`, which are accepted as an object type with one property. -/
theorem complete_accepts_object :
    let token (kind : TokenKind) (value : String) : Token := ⟨kind, value, Span.fileStart "t"⟩
    let tokens : List Token :=
      [token .leftBrace "\x7b", token .identifier "a", token .colon ":", token .identifier "b",
        token .leftBracket "[", token .rightBracket "]", token .rightBrace "\x7d",
        token .endOfInput ""]
    (1 : Int) ≤ 2 ∧ EndsInput tokens ∧ (∀ token ∈ tokens, token.kind ≠ .comment) ∧
      ∃ session, Session.start "t" 2 = .ok session ∧
        ∃ node final, (WalkM.runRule complete tokens).run () session = .ok node final := by
  intro token tokens
  have ends : EndsInput tokens := by simp [tokens, token]
  have uncommented : ∀ token ∈ tokens, token.kind ≠ .comment := by simp [tokens, token]
  obtain ⟨session, started, accepts, _⟩ :=
    complete_accepts_exactly "t" 2 (by decide) tokens ends uncommented
  let word (value : String) : TokenOf .identifier := ⟨token .identifier value, rfl⟩
  -- the derivation of the tokens, from the inside out
  let element : TypeForm := .of (.of (.name (word "b"))
    [(⟨token .leftBracket "[", rfl⟩, ⟨token .rightBracket "]", rfl⟩)]) .last
  let object : AtomForm := .object ⟨token .leftBrace "\x7b", rfl⟩ []
    (.properties (.of (word "a") ⟨token .colon ":", rfl⟩ element) [] .last)
    ⟨token .rightBrace "\x7d", rfl⟩
  have derived := (accepts _).mpr
    ⟨⟨[], .of (.of object []) .last, [], ⟨token .endOfInput "", rfl⟩⟩, rfl, rfl, by decide⟩
  exact ⟨by decide, ends, uncommented, session, started, _, derived⟩

end TypeExpr

end DocGrammar
