import DocGrammar.Proofs.Tokens.Symbol

/-! # How tokens start

What a rule does at the end of a construct depends on the first of the tokens behind it.

* **`AvoidsHead`** — the first token, if there is one, is of none of some kinds.
* **`StartsIn`** — there is a first token, and it is of one of some kinds. -/

namespace DocGrammar

variable {kinds fewer : List TokenKind} {token : Token} {tokens others : List Token}

/-! ## Kinds that do not stand first -/

/-- Whether the first of some tokens, if there is one, is of none of some kinds. -/
def AvoidsHead (kinds : List TokenKind) (tokens : List Token) : Prop :=
  ∀ token ∈ tokens.head?, token.kind ∉ kinds

@[simp] theorem avoidsHead_nil (kinds : List TokenKind) : AvoidsHead kinds [] := by
  simp [AvoidsHead]

@[simp] theorem avoidsHead_cons (kinds : List TokenKind) (token : Token) (others : List Token) :
    AvoidsHead kinds (token :: others) ↔ token.kind ∉ kinds := by
  simp [AvoidsHead]

theorem AvoidsHead.mono (avoids : AvoidsHead kinds tokens) (subset : fewer ⊆ kinds) :
    AvoidsHead fewer tokens :=
  fun token member inFewer => avoids token member (subset inFewer)

/-- What avoids a kind has another kind at its head. -/
theorem AvoidsHead.kind_ne (avoids : AvoidsHead kinds (token :: others)) {kind : TokenKind}
    (member : kind ∈ kinds) : token.kind ≠ kind := by
  rw [avoidsHead_cons] at avoids
  intro same
  rw [same] at avoids
  exact avoids member

/-! ## Kinds that stand first -/

/-- Whether there is a first token and it is of one of some kinds. -/
def StartsIn (kinds : List TokenKind) (tokens : List Token) : Prop :=
  ∃ token others, tokens = token :: others ∧ token.kind ∈ kinds

theorem startsIn_cons {kind : TokenKind} (same : token.kind = kind) (member : kind ∈ kinds) :
    StartsIn kinds (token :: others) :=
  ⟨token, others, rfl, same ▸ member⟩

theorem StartsIn.ne_nil (starts : StartsIn kinds tokens) : tokens ≠ [] := by
  obtain ⟨token, others, rfl, _⟩ := starts
  exact List.cons_ne_nil _ _

theorem StartsIn.mono (starts : StartsIn fewer tokens) (subset : fewer ⊆ kinds) :
    StartsIn kinds tokens := by
  obtain ⟨token, others, rfl, member⟩ := starts
  exact ⟨token, others, rfl, subset member⟩

theorem StartsIn.append (starts : StartsIn kinds tokens) (more : List Token) :
    StartsIn kinds (tokens ++ more) := by
  obtain ⟨token, others, rfl, member⟩ := starts
  exact ⟨token, others ++ more, rfl, member⟩

/-- What starts in a single kind has a first token of that kind. -/
theorem StartsIn.kind {kind : TokenKind} (starts : StartsIn [kind] (token :: others)) :
    token.kind = kind := by
  obtain ⟨first, more, split, member⟩ := starts
  rw [(List.cons.inj split).1]
  exact List.mem_singleton.mp member

/-- What starts in some kinds avoids every other kind. -/
theorem StartsIn.avoidsHead (starts : StartsIn kinds tokens)
    (apart : ∀ kind ∈ kinds, kind ∉ fewer) : AvoidsHead fewer tokens := by
  obtain ⟨token, others, rfl, member⟩ := starts
  exact (avoidsHead_cons _ _ _).mpr (apart _ member)

/-- Tokens that say some symbols start with the kind of the first one. -/
theorem Says.startsIn {keywords : KeywordTable} {symbol : Symbol keywords}
    {symbols : List (Symbol keywords)} (told : Says tokens (symbol :: symbols))
    (member : symbol.kind ∈ kinds) : StartsIn kinds tokens := by
  obtain ⟨token, more, rfl, tells, _⟩ := told.of_cons
  exact startsIn_cons tells.kind member

end DocGrammar
