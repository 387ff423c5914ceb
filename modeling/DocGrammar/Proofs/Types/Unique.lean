import DocGrammar.Proofs.Rules.Heads
import DocGrammar.Proofs.Types.Form

/-! # Derivations of types are unique

Two derivations that derive the beginning of one list of tokens are equal, provided that neither
of them could go on with what stands behind it. Hence a list of tokens has at most one derivation
as a whole text.

* **`TypeForm.unique`** — a type is determined by the tokens that it starts.
* **`WholeTypeForm.tokens_injective`** — a whole text has at most one derivation. -/

namespace DocGrammar

/-! ## What stands behind a derivation -/

/-- What avoids a kind does not start with a token of that kind. -/
theorem AvoidsHead.not_cons {kinds : List TokenKind} {tokens others : List Token}
    {kind : TokenKind} (avoids : AvoidsHead kinds tokens) (token : TokenOf kind)
    (starts : tokens = token.val :: others) (member : kind ∈ kinds) : False := by
  rw [starts, avoidsHead_cons, token.property] at avoids
  exact avoids member

/-- What starts with a token of one kind avoids every other kind. -/
theorem TokenOf.avoidsHead {kind : TokenKind} (token : TokenOf kind) {kinds : List TokenKind}
    (others : kind ∉ kinds) (rest : List Token) : AvoidsHead kinds (token.val :: rest) := by
  rw [avoidsHead_cons, token.property]
  exact others

/-- Tokens of different kinds are different. -/
theorem TokenOf.val_ne {kind other : TokenKind} (first : TokenOf kind) (second : TokenOf other)
    (apart : kind ≠ other) : first.val ≠ second.val := by
  intro same
  refine apart ?_
  rw [← first.property, ← second.property, same]

/-- The kinds of tokens that a type goes on with. -/
def typeGoesOn : List TokenKind := [.pipe, .less, .leftBracket]

/-- The kinds of tokens that an array type goes on with. -/
def arrayGoesOn : List TokenKind := [.less, .leftBracket]

/-! ## How derivations start -/

/-- An atom starts with a name or a brace. -/
theorem AtomForm.exists_tokens (form : AtomForm) :
    ∃ token others, form.tokens = token :: others ∧
      (token.kind = .identifier ∨ token.kind = .leftBrace) := by
  cases form with
  | name word => exact ⟨_, _, rfl, .inl word.property⟩
  | generic word => exact ⟨_, _, rfl, .inl word.property⟩
  | object opening => exact ⟨_, _, rfl, .inr opening.property⟩

/-- A type starts with a name or a brace. -/
theorem TypeForm.exists_tokens (form : TypeForm) :
    ∃ token others, form.tokens = token :: others ∧
      (token.kind = .identifier ∨ token.kind = .leftBrace) := by
  obtain ⟨⟨atom, pairs⟩, others⟩ := form
  obtain ⟨token, more, tokens, kind⟩ := atom.exists_tokens
  refine ⟨token, more ++ (pairs.tokens ++ others.tokens), ?_, kind⟩
  rw [TypeForm.tokens, ArrayForm.tokens, tokens, List.append_assoc, List.cons_append]

/-- What starts with a type avoids every kind but those of a name and a brace. -/
theorem TypeForm.avoidsHead (form : TypeForm) {kinds : List TokenKind}
    (others : TokenKind.identifier ∉ kinds ∧ TokenKind.leftBrace ∉ kinds) (rest : List Token) :
    AvoidsHead kinds (form.tokens ++ rest) := by
  obtain ⟨token, more, tokens, kind⟩ := form.exists_tokens
  rw [tokens, List.cons_append, avoidsHead_cons]
  rcases kind with kind | kind
  · rw [kind]
    exact others.1
  · rw [kind]
    exact others.2

/-- A property starts with a name. -/
theorem PropertyForm.exists_tokens (form : PropertyForm) :
    ∃ (word : TokenOf .identifier) (others : List Token), form.tokens = word.val :: others := by
  obtain ⟨word, colon, type⟩ := form
  exact ⟨word, _, rfl⟩

/-- What starts with a property avoids every kind but that of a name. -/
theorem PropertyForm.avoidsHead (form : PropertyForm) {kinds : List TokenKind}
    (others : TokenKind.identifier ∉ kinds) (rest : List Token) :
    AvoidsHead kinds (form.tokens ++ rest) := by
  obtain ⟨word, more, tokens⟩ := form.exists_tokens
  rw [tokens]
  exact word.avoidsHead others _

/-- What starts with line ends avoids what the rest avoids, if that is not a line end. -/
theorem Feeds.avoidsHead (feeds : Feeds) {kinds : List TokenKind} {rest : List Token}
    (others : TokenKind.newline ∉ kinds) (avoids : AvoidsHead kinds rest) :
    AvoidsHead kinds (feeds.tokens ++ rest) := by
  cases feeds with
  | nil => exact avoids
  | cons feed more =>
    exact feed.avoidsHead others _

/-- Bracket pairs start with a bracket, if there are any. -/
theorem BracketPairs.avoidsHead (pairs : BracketPairs) {kinds : List TokenKind}
    {rest : List Token} (others : TokenKind.leftBracket ∉ kinds) (avoids : AvoidsHead kinds rest) :
    AvoidsHead kinds (pairs.tokens ++ rest) := by
  cases pairs with
  | nil => exact avoids
  | cons pair more => exact pair.1.avoidsHead others _

/-- The array types behind the first one start with a bar, if there are any. -/
theorem UnionForm.avoidsHead (form : UnionForm) {kinds : List TokenKind} {rest : List Token}
    (others : TokenKind.pipe ∉ kinds) (avoids : AvoidsHead kinds rest) :
    AvoidsHead kinds (form.tokens ++ rest) := by
  cases form with
  | last => exact avoids
  | bar mark =>
    exact mark.avoidsHead others _

/-- The arguments behind the first one start with a comma, if there are any. -/
theorem ArgumentsForm.avoidsHead (form : ArgumentsForm) {kinds : List TokenKind}
    {rest : List Token} (others : TokenKind.comma ∉ kinds) (avoids : AvoidsHead kinds rest) :
    AvoidsHead kinds (form.tokens ++ rest) := by
  cases form with
  | last => exact avoids
  | comma mark =>
    exact mark.avoidsHead others _

/-- What stands between braces starts with a name, if there is anything. -/
theorem ObjectForm.avoidsHead (form : ObjectForm) {kinds : List TokenKind} {rest : List Token}
    (others : TokenKind.identifier ∉ kinds) (avoids : AvoidsHead kinds rest) :
    AvoidsHead kinds (form.tokens ++ rest) := by
  cases form with
  | empty => exact avoids
  | properties first =>
    rw [ObjectForm.tokens, List.append_assoc]
    exact first.avoidsHead others _

/-- The properties behind the first one start with a comma, if there are any. -/
theorem PropertiesForm.avoidsHead (form : PropertiesForm) {kinds : List TokenKind}
    {rest : List Token} (others : TokenKind.comma ∉ kinds) (avoids : AvoidsHead kinds rest) :
    AvoidsHead kinds (form.tokens ++ rest) := by
  cases form with
  | last => exact avoids
  | trailing mark =>
    exact mark.avoidsHead others _
  | comma mark =>
    exact mark.avoidsHead others _

/-! ## Runs of tokens -/

/-- Line ends are determined by the tokens that they start. -/
theorem Feeds.unique {first second : Feeds} {r s : List Token}
    (same : first.tokens ++ r = second.tokens ++ s) (avoidsLeft : AvoidsHead [.newline] r)
    (avoidsRight : AvoidsHead [.newline] s) : first = second ∧ r = s := by
  induction first generalizing second with
  | nil =>
    cases second with
    | nil => exact ⟨rfl, same⟩
    | cons feed more =>
      exact (avoidsLeft.not_cons feed same (by decide)).elim
  | cons feed more ih =>
    cases second with
    | nil =>
      exact (avoidsRight.not_cons feed same.symm (by decide)).elim
    | cons feed' more' =>
      obtain ⟨head, tail⟩ := List.cons.inj same
      obtain ⟨rfl, rest⟩ := ih tail
      exact ⟨by rw [Subtype.ext head], rest⟩

/-- Bracket pairs are determined by the tokens that they start. -/
theorem BracketPairs.unique {first second : BracketPairs} {r s : List Token}
    (same : first.tokens ++ r = second.tokens ++ s) (avoidsLeft : AvoidsHead [.leftBracket] r)
    (avoidsRight : AvoidsHead [.leftBracket] s) : first = second ∧ r = s := by
  induction first generalizing second with
  | nil =>
    cases second with
    | nil => exact ⟨rfl, same⟩
    | cons pair more =>
      exact (avoidsLeft.not_cons pair.1 same (by decide)).elim
  | cons pair more ih =>
    cases second with
    | nil =>
      exact (avoidsRight.not_cons pair.1 same.symm (by decide)).elim
    | cons pair' more' =>
      replace same : pair.1.val :: pair.2.val :: (BracketPairs.tokens more ++ r) =
        pair'.1.val :: pair'.2.val :: (BracketPairs.tokens more' ++ s) := same
      simp only [List.cons.injEq] at same
      obtain ⟨rfl, rest⟩ := ih same.2.2
      exact ⟨by rw [Prod.ext (Subtype.ext same.1) (Subtype.ext same.2.1)], rest⟩

/-! ## Derivations -/

mutual

/-- A type is determined by the tokens that it starts. -/
theorem TypeForm.unique : ∀ (first second : TypeForm) {r s : List Token},
    first.tokens ++ r = second.tokens ++ s → AvoidsHead typeGoesOn r →
    AvoidsHead typeGoesOn s → first = second ∧ r = s
  | .of first others, .of first' others', r, s, same, avoidsLeft, avoidsRight => by
    simp only [TypeForm.tokens, List.append_assoc] at same
    have left : AvoidsHead arrayGoesOn (others.tokens ++ r) :=
      others.avoidsHead (by decide) (avoidsLeft.mono (by decide))
    have right : AvoidsHead arrayGoesOn (others'.tokens ++ s) :=
      others'.avoidsHead (by decide) (avoidsRight.mono (by decide))
    obtain ⟨rfl, tail⟩ := ArrayForm.unique first first' same left right
    obtain ⟨rfl, rest⟩ := UnionForm.unique others others' tail avoidsLeft avoidsRight
    exact ⟨rfl, rest⟩

/-- The array types behind the first one are determined by the tokens that they start. -/
theorem UnionForm.unique : ∀ (first second : UnionForm) {r s : List Token},
    first.tokens ++ r = second.tokens ++ s → AvoidsHead typeGoesOn r →
    AvoidsHead typeGoesOn s → first = second ∧ r = s
  | .last, .last, r, s, same, _, _ => ⟨rfl, same⟩
  | .last, .bar mark next others, r, s, same, avoidsLeft, _ =>
    (avoidsLeft.not_cons mark same (by decide)).elim
  | .bar mark next others, .last, r, s, same, _, avoidsRight =>
    (avoidsRight.not_cons mark same.symm (by decide)).elim
  | .bar mark next others, .bar mark' next' others', r, s, same, avoidsLeft, avoidsRight => by
    simp only [UnionForm.tokens, List.cons_append, List.append_assoc, List.cons.injEq] at same
    have left : AvoidsHead arrayGoesOn (others.tokens ++ r) :=
      others.avoidsHead (by decide) (avoidsLeft.mono (by decide))
    have right : AvoidsHead arrayGoesOn (others'.tokens ++ s) :=
      others'.avoidsHead (by decide) (avoidsRight.mono (by decide))
    obtain ⟨rfl, tail⟩ := ArrayForm.unique next next' same.2 left right
    obtain ⟨rfl, rest⟩ := UnionForm.unique others others' tail avoidsLeft avoidsRight
    exact ⟨by rw [Subtype.ext same.1], rest⟩

/-- An array type is determined by the tokens that it starts. -/
theorem ArrayForm.unique : ∀ (first second : ArrayForm) {r s : List Token},
    first.tokens ++ r = second.tokens ++ s → AvoidsHead arrayGoesOn r →
    AvoidsHead arrayGoesOn s → first = second ∧ r = s
  | .of atom pairs, .of atom' pairs', r, s, same, avoidsLeft, avoidsRight => by
    simp only [ArrayForm.tokens, List.append_assoc] at same
    have left : AvoidsHead [.less] (pairs.tokens ++ r) :=
      pairs.avoidsHead (by decide) (avoidsLeft.mono (by decide))
    have right : AvoidsHead [.less] (pairs'.tokens ++ s) :=
      pairs'.avoidsHead (by decide) (avoidsRight.mono (by decide))
    obtain ⟨rfl, tail⟩ := AtomForm.unique atom atom' same left right
    obtain ⟨rfl, rest⟩ := BracketPairs.unique tail (avoidsLeft.mono (by decide))
      (avoidsRight.mono (by decide))
    exact ⟨rfl, rest⟩

/-- An atom is determined by the tokens that it starts. -/
theorem AtomForm.unique : ∀ (first second : AtomForm) {r s : List Token},
    first.tokens ++ r = second.tokens ++ s → AvoidsHead [.less] r → AvoidsHead [.less] s →
    first = second ∧ r = s
  | .name word, .name word', r, s, same, _, _ => by
    obtain ⟨head, rest⟩ := List.cons.inj same
    exact ⟨by rw [Subtype.ext head], rest⟩
  -- a name alone is not followed by the bracket of arguments
  | .name word, .generic word' opening first others closing, r, s, same, avoidsLeft, _ => by
    obtain ⟨_, tail⟩ := List.cons.inj same
    exact (avoidsLeft.not_cons opening tail (by decide)).elim
  | .generic word opening first others closing, .name word', r, s, same, _, avoidsRight => by
    obtain ⟨_, tail⟩ := List.cons.inj same
    exact (avoidsRight.not_cons opening tail.symm (by decide)).elim
  -- a name and a brace differ at the first token
  | .name word, .object opening feeds body closing, _, _, same, _, _ =>
    (word.val_ne opening (by decide) (List.cons.inj same).1).elim
  | .object opening feeds body closing, .name word, _, _, same, _, _ =>
    (opening.val_ne word (by decide) (List.cons.inj same).1).elim
  | .generic word opening first others closing, .object opening' feeds body closing', _, _, same,
    _, _ => (word.val_ne opening' (by decide) (List.cons.inj same).1).elim
  | .object opening feeds body closing, .generic word opening' first others closing', _, _, same,
    _, _ => (opening.val_ne word (by decide) (List.cons.inj same).1).elim
  | .generic word opening first others closing, .generic word' opening' first' others' closing',
    r, s, same, _, _ => by
    simp only [AtomForm.tokens, List.cons_append, List.append_assoc, List.cons.injEq,
      List.nil_append] at same
    obtain ⟨words, openings, same⟩ := same
    obtain ⟨rfl, tail⟩ := TypeForm.unique first first' same
      (others.avoidsHead (by decide) (closing.avoidsHead (by decide) r))
      (others'.avoidsHead (by decide) (closing'.avoidsHead (by decide) s))
    obtain ⟨rfl, ending⟩ := ArgumentsForm.unique others others' tail
      (closing.avoidsHead (by decide) r) (closing'.avoidsHead (by decide) s)
    obtain ⟨closings, rest⟩ := List.cons.inj ending
    exact ⟨by rw [Subtype.ext words, Subtype.ext openings, Subtype.ext closings], rest⟩
  | .object opening feeds body closing, .object opening' feeds' body' closing', r, s, same, _,
    _ => by
    simp only [AtomForm.tokens, List.cons_append, List.append_assoc, List.cons.injEq,
      List.nil_append] at same
    obtain ⟨openings, same⟩ := same
    obtain ⟨rfl, tail⟩ := Feeds.unique same
      (body.avoidsHead (by decide) (closing.avoidsHead (by decide) r))
      (body'.avoidsHead (by decide) (closing'.avoidsHead (by decide) s))
    obtain ⟨rfl, ending⟩ := ObjectForm.unique body body' tail
      (closing.avoidsHead (by decide) r) (closing'.avoidsHead (by decide) s)
    obtain ⟨closings, rest⟩ := List.cons.inj ending
    exact ⟨by rw [Subtype.ext openings, Subtype.ext closings], rest⟩

/-- The arguments behind the first one are determined by the tokens that they start. -/
theorem ArgumentsForm.unique : ∀ (first second : ArgumentsForm) {r s : List Token},
    first.tokens ++ r = second.tokens ++ s → AvoidsHead (.comma :: typeGoesOn) r →
    AvoidsHead (.comma :: typeGoesOn) s → first = second ∧ r = s
  | .last, .last, r, s, same, _, _ => ⟨rfl, same⟩
  | .last, .comma mark next others, r, s, same, avoidsLeft, _ =>
    (avoidsLeft.not_cons mark same (by decide)).elim
  | .comma mark next others, .last, r, s, same, _, avoidsRight =>
    (avoidsRight.not_cons mark same.symm (by decide)).elim
  | .comma mark next others, .comma mark' next' others', r, s, same, avoidsLeft,
    avoidsRight => by
    simp only [ArgumentsForm.tokens, List.cons_append, List.append_assoc, List.cons.injEq] at same
    have left : AvoidsHead typeGoesOn (others.tokens ++ r) :=
      others.avoidsHead (by decide) (avoidsLeft.mono (by decide))
    have right : AvoidsHead typeGoesOn (others'.tokens ++ s) :=
      others'.avoidsHead (by decide) (avoidsRight.mono (by decide))
    obtain ⟨rfl, tail⟩ := TypeForm.unique next next' same.2 left right
    obtain ⟨rfl, rest⟩ := ArgumentsForm.unique others others' tail avoidsLeft avoidsRight
    exact ⟨by rw [Subtype.ext same.1], rest⟩

/-- What stands between the braces is determined by the tokens that it starts. -/
theorem ObjectForm.unique : ∀ (first second : ObjectForm) {r s : List Token},
    first.tokens ++ r = second.tokens ++ s →
    AvoidsHead (.identifier :: .newline :: .comma :: typeGoesOn) r →
    AvoidsHead (.identifier :: .newline :: .comma :: typeGoesOn) s → first = second ∧ r = s
  | .empty, .empty, r, s, same, _, _ => ⟨rfl, same⟩
  | .empty, .properties next feeds others, r, s, same, avoidsLeft, _ => by
    obtain ⟨word, more, tokens⟩ := next.exists_tokens
    rw [ObjectForm.tokens, ObjectForm.tokens, tokens] at same
    exact (avoidsLeft.not_cons word same (by decide)).elim
  | .properties next feeds others, .empty, r, s, same, _, avoidsRight => by
    obtain ⟨word, more, tokens⟩ := next.exists_tokens
    rw [ObjectForm.tokens, ObjectForm.tokens, tokens] at same
    exact (avoidsRight.not_cons word same.symm (by decide)).elim
  | .properties next feeds others, .properties next' feeds' others', r, s, same, avoidsLeft,
    avoidsRight => by
    simp only [ObjectForm.tokens, List.append_assoc] at same
    -- what stands behind the first property does not go on with its type
    have left : AvoidsHead typeGoesOn (others.tokens ++ r) :=
      others.avoidsHead (by decide) (avoidsLeft.mono (by decide))
    have right : AvoidsHead typeGoesOn (others'.tokens ++ s) :=
      others'.avoidsHead (by decide) (avoidsRight.mono (by decide))
    obtain ⟨rfl, tail⟩ := PropertyForm.unique next next' same
      (feeds.avoidsHead (by decide) left) (feeds'.avoidsHead (by decide) right)
    obtain ⟨rfl, ending⟩ := Feeds.unique tail
      (others.avoidsHead (by decide) (avoidsLeft.mono (by decide)))
      (others'.avoidsHead (by decide) (avoidsRight.mono (by decide)))
    obtain ⟨rfl, rest⟩ := PropertiesForm.unique others others' ending avoidsLeft avoidsRight
    exact ⟨rfl, rest⟩

/-- A property is determined by the tokens that it starts. -/
theorem PropertyForm.unique : ∀ (first second : PropertyForm) {r s : List Token},
    first.tokens ++ r = second.tokens ++ s → AvoidsHead typeGoesOn r →
    AvoidsHead typeGoesOn s → first = second ∧ r = s
  | .of word colon type, .of word' colon' type', r, s, same, avoidsLeft, avoidsRight => by
    simp only [PropertyForm.tokens, List.cons_append, List.cons.injEq] at same
    obtain ⟨words, colons, same⟩ := same
    obtain ⟨rfl, rest⟩ := TypeForm.unique type type' same avoidsLeft avoidsRight
    exact ⟨by rw [Subtype.ext words, Subtype.ext colons], rest⟩

/-- The properties behind the first one are determined by the tokens that they start. -/
theorem PropertiesForm.unique : ∀ (first second : PropertiesForm) {r s : List Token},
    first.tokens ++ r = second.tokens ++ s →
    AvoidsHead (.identifier :: .newline :: .comma :: typeGoesOn) r →
    AvoidsHead (.identifier :: .newline :: .comma :: typeGoesOn) s → first = second ∧ r = s
  | .last, .last, r, s, same, _, _ => ⟨rfl, same⟩
  -- a list that is over cannot be followed by the comma of one that goes on
  | .last, .trailing mark feeds, r, s, same, avoidsLeft, _ =>
    (avoidsLeft.not_cons mark same (by decide)).elim
  | .last, .comma mark feeds next feedsBehind others, r, s, same, avoidsLeft, _ =>
    (avoidsLeft.not_cons mark same (by decide)).elim
  | .trailing mark feeds, .last, r, s, same, _, avoidsRight =>
    (avoidsRight.not_cons mark same.symm (by decide)).elim
  | .comma mark feeds next feedsBehind others, .last, r, s, same, _, avoidsRight =>
    (avoidsRight.not_cons mark same.symm (by decide)).elim
  | .trailing mark feeds, .trailing mark' feeds', r, s, same, avoidsLeft, avoidsRight => by
    simp only [PropertiesForm.tokens, List.cons_append, List.cons.injEq] at same
    obtain ⟨rfl, rest⟩ := Feeds.unique same.2 (avoidsLeft.mono (by decide))
      (avoidsRight.mono (by decide))
    exact ⟨by rw [Subtype.ext same.1], rest⟩
  -- behind a comma and its line ends a name goes on, which cannot follow a list that is over
  | .trailing mark feeds, .comma mark' feeds' next feedsBehind others, r, s, same, avoidsLeft,
    _ => by
    simp only [PropertiesForm.tokens, List.cons_append, List.append_assoc, List.cons.injEq] at same
    obtain ⟨_, tail⟩ := Feeds.unique same.2 (avoidsLeft.mono (by decide))
      (next.avoidsHead (by decide) _)
    obtain ⟨word, more, tokens⟩ := next.exists_tokens
    rw [tokens] at tail
    exact (avoidsLeft.not_cons word tail (by decide)).elim
  | .comma mark feeds next feedsBehind others, .trailing mark' feeds', r, s, same, _,
    avoidsRight => by
    simp only [PropertiesForm.tokens, List.cons_append, List.append_assoc, List.cons.injEq] at same
    obtain ⟨_, tail⟩ := Feeds.unique same.2 (next.avoidsHead (by decide) _)
      (avoidsRight.mono (by decide))
    obtain ⟨word, more, tokens⟩ := next.exists_tokens
    rw [tokens] at tail
    exact (avoidsRight.not_cons word tail.symm (by decide)).elim
  | .comma mark feeds next feedsBehind others, .comma mark' feeds' next' feedsBehind' others',
    r, s, same, avoidsLeft, avoidsRight => by
    simp only [PropertiesForm.tokens, List.cons_append, List.append_assoc, List.cons.injEq] at same
    obtain ⟨rfl, tail⟩ := Feeds.unique same.2 (next.avoidsHead (by decide) _)
      (next'.avoidsHead (by decide) _)
    have left : AvoidsHead typeGoesOn (others.tokens ++ r) :=
      others.avoidsHead (by decide) (avoidsLeft.mono (by decide))
    have right : AvoidsHead typeGoesOn (others'.tokens ++ s) :=
      others'.avoidsHead (by decide) (avoidsRight.mono (by decide))
    obtain ⟨rfl, behind⟩ := PropertyForm.unique next next' tail
      (feedsBehind.avoidsHead (by decide) left) (feedsBehind'.avoidsHead (by decide) right)
    obtain ⟨rfl, ending⟩ := Feeds.unique behind
      (others.avoidsHead (by decide) (avoidsLeft.mono (by decide)))
      (others'.avoidsHead (by decide) (avoidsRight.mono (by decide)))
    obtain ⟨rfl, rest⟩ := PropertiesForm.unique others others' ending avoidsLeft avoidsRight
    exact ⟨by rw [Subtype.ext same.1], rest⟩

end

/-! ## Whole texts -/

/-- A whole text has at most one derivation. -/
theorem WholeTypeForm.tokens_injective {first second : WholeTypeForm}
    (same : first.tokens = second.tokens) : first = second := by
  obtain ⟨feeds, type, feedsBehind, finish⟩ := first
  obtain ⟨feeds', type', feedsBehind', finish'⟩ := second
  simp only [WholeTypeForm.tokens] at same
  obtain ⟨rfl, tail⟩ := Feeds.unique same (type.avoidsHead (by decide) _)
    (type'.avoidsHead (by decide) _)
  obtain ⟨rfl, ending⟩ := TypeForm.unique type type' tail
    (feedsBehind.avoidsHead (by decide) (finish.avoidsHead (by decide) []))
    (feedsBehind'.avoidsHead (by decide) (finish'.avoidsHead (by decide) []))
  obtain ⟨rfl, last⟩ := Feeds.unique ending (finish.avoidsHead (by decide) [])
    (finish'.avoidsHead (by decide) [])
  obtain ⟨finishes, _⟩ := List.cons.inj last
  rw [Subtype.ext finishes]

end DocGrammar
