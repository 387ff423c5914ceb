import DocGrammar.Proofs.Rules.Reading
import DocGrammar.Proofs.Types.Unique

/-! # Every type is accepted

The rules of the type grammar read the tokens of every derivation that there is room for and build
its tree. What stands behind the derivation must not be able to continue it.

* **`TypeForm.reads`** — the rule of types reads every type.
* **`WholeTypeForm.reads`** — the rule of whole texts reads every whole text. -/

namespace DocGrammar

open Rule RuleState

/-! ## What stands behind -/

/-- Line ends are skipped. -/
theorem Feeds.reads (feeds : Feeds) {room : Nat} {rest : List Token}
    (avoids : AvoidsHead [.newline] rest) :
    skipNewlines.Reads room feeds.tokens rest fun _ => True := by
  refine reads_skip ?_ avoids
  intro token member
  obtain ⟨feed, _, rfl⟩ := List.mem_map.mp member
  rw [feed.property]
  exact List.mem_singleton_self _

/-- A state before a property stands on its name. -/
@[simp] theorem PropertyForm.kind_current_facing (form : PropertyForm) (before rest : List Token)
    (nesting : Nesting) :
    (facing before (form.tokens ++ rest) nesting).cursor.current.kind = .identifier := by
  obtain ⟨word, more, tokens⟩ := form.exists_tokens
  rw [tokens]
  exact word.property

namespace TypeExpr

variable {inner : Rule Node} {room : Nat} {rest : List Token}

/-- A pair of brackets makes an array type of the element before it. -/
theorem reads_bracketRound (element : Node) (opening : TokenOf .leftBracket)
    (closing : TokenOf .rightBracket) :
    (bracketRound element).Reads room [opening.val, closing.val] rest
      (Round.IsAgain (· = arrayNode element closing.val)) := by
  intro nonempty before nesting _
  simp [bracketRound, opening.property, closing.property, nonempty, Round.IsAgain, arrayNode]

/-- Without an opening bracket an array type is complete. -/
theorem reads_bracketRound_done (element : Node) (avoids : AvoidsHead [.leftBracket] rest) :
    (bracketRound element).Reads room [] rest (Round.IsDone (· = element)) := by
  intro nonempty before nesting _
  obtain ⟨next, others, rfl⟩ := List.exists_cons_of_ne_nil nonempty
  have other := avoids.kind_ne List.mem_cons_self
  simp [bracketRound, other, Round.IsDone]

/-- A bar and an array type make a union with the type before them. -/
theorem reads_unionRound (left : Node) (mark : TokenOf .pipe) (next : ArrayForm)
    (reads : (array inner).Reads room next.tokens rest (· = next.node)) :
    (unionRound inner left).Reads room (mark.val :: next.tokens) rest
      (Round.IsAgain (· = unionNode left next.node)) := by
  intro nonempty before nesting enough
  simp only [unionRound, List.cons_append]
  simp [mark.property, nonempty]
  refine reads.ensures nonempty enough ?_
  rintro _ rfl
  exact ⟨rfl, rfl⟩

/-- Without a bar a union is complete. -/
theorem reads_unionRound_done (left : Node) (avoids : AvoidsHead [.pipe] rest) :
    (unionRound inner left).Reads room [] rest (Round.IsDone (· = left)) := by
  intro nonempty before nesting _
  obtain ⟨next, others, rfl⟩ := List.exists_cons_of_ne_nil nonempty
  have other := avoids.kind_ne List.mem_cons_self
  simp [unionRound, other, Round.IsDone]

/-- A comma and a type extend the arguments found before them. -/
theorem reads_argumentRound (found : List Node) (mark : TokenOf .comma) (next : TypeForm)
    (reads : inner.Reads room next.tokens rest (· = next.node)) :
    (chainRound .comma inner found).Reads room (mark.val :: next.tokens) rest
      (Round.IsAgain (· = found ++ [next.node])) := by
  intro nonempty before nesting enough
  simp only [chainRound, List.cons_append]
  simp [mark.property, nonempty]
  refine reads.ensures nonempty enough ?_
  rintro _ rfl
  exact ⟨rfl, rfl⟩

/-- Without a comma the arguments are complete. -/
theorem reads_argumentRound_done (found : List Node) (avoids : AvoidsHead [.comma] rest) :
    (chainRound .comma inner found).Reads room [] rest (Round.IsDone (· = found)) := by
  intro nonempty before nesting _
  obtain ⟨next, others, rfl⟩ := List.exists_cons_of_ne_nil nonempty
  have other := avoids.kind_ne List.mem_cons_self
  simp [chainRound, other, Round.IsDone]

theorem reads_property (word : TokenOf .identifier) (colon : TokenOf .colon) (type : TypeForm)
    (reads : inner.Reads room type.tokens rest (· = type.node)) :
    (property inner).Reads room (PropertyForm.of word colon type).tokens rest
      (· = (PropertyForm.of word colon type).node) := by
  intro nonempty before nesting enough
  simp only [property, PropertyForm.tokens, List.cons_append]
  simp [word.property, colon.property, nonempty]
  refine reads.ensures nonempty enough ?_
  rintro _ rfl
  exact ⟨rfl, rfl⟩

/-- The first property of an object type has no comma before it. -/
theorem reads_propertyRound_first (form : PropertyForm) (feeds : Feeds)
    (reads : (property inner).Reads room form.tokens (feeds.tokens ++ rest) (· = form.node))
    (avoids : AvoidsHead [.newline] rest) :
    (propertyRound inner []).Reads room (form.tokens ++ feeds.tokens) rest
      (Round.IsAgain (· = [form.node])) := by
  intro nonempty before nesting enough
  simp [propertyRound]
  refine reads.ensures (by simp [nonempty]) enough ?_
  rintro _ rfl
  refine (feeds.reads avoids).ensures nonempty enough ?_
  rintro _ _
  exact ⟨rfl, by simp⟩

/-- Every further property of an object type has a comma before it. -/
theorem reads_propertyRound (found : List Node) (nonempty : found ≠ []) (mark : TokenOf .comma)
    (feeds : Feeds) (form : PropertyForm) (feedsBehind : Feeds)
    (reads : (property inner).Reads room form.tokens (feedsBehind.tokens ++ rest) (· = form.node))
    (avoids : AvoidsHead [.newline] rest) :
    (propertyRound inner found).Reads room
      (mark.val :: (feeds.tokens ++ (form.tokens ++ feedsBehind.tokens))) rest
      (Round.IsAgain (· = found ++ [form.node])) := by
  intro behind before nesting enough
  simp [propertyRound, nonempty, behind, mark.property]
  refine (feeds.reads (form.avoidsHead (by decide) _)).ensures (by simp [behind]) enough ?_
  rintro _ _
  simp
  refine reads.ensures (by simp [behind]) enough ?_
  rintro _ rfl
  refine (feedsBehind.reads avoids).ensures behind enough ?_
  rintro _ _
  exact ⟨rfl, by simp⟩

/-- A comma may stand behind the last property. -/
theorem reads_propertyRound_trailing (found : List Node) (nonempty : found ≠ [])
    (mark : TokenOf .comma) (feeds : Feeds) (close : TokenOf .rightBrace) (others : List Token) :
    (propertyRound inner found).Reads room (mark.val :: feeds.tokens) (close.val :: others)
      (Round.IsDone (· = found)) := by
  intro behind before nesting enough
  have avoids : AvoidsHead [.newline] (close.val :: others) := close.avoidsHead (by decide) others
  simp [propertyRound, nonempty, mark.property]
  refine (feeds.reads avoids).ensures behind enough ?_
  rintro _ _
  simp [close.property, Round.IsDone]

/-- At the closing brace an object type is complete. -/
theorem reads_propertyRound_done (found : List Node) (close : TokenOf .rightBrace)
    (others : List Token) :
    (propertyRound inner found).Reads room [] (close.val :: others)
      (Round.IsDone (· = found)) := by
  intro behind before nesting _
  simp [propertyRound, close.property, Round.IsDone]

end TypeExpr

/-! ## Derivations -/

/-- Bracket pairs are read behind every type. -/
theorem BracketPairs.reads (pairs : BracketPairs) {room : Nat} {rest : List Token}
    (avoids : AvoidsHead [.leftBracket] rest) (element : Node) :
    LoopReads TypeExpr.bracketRound element room pairs.tokens rest
      (· = pairs.extend element) := by
  induction pairs generalizing element with
  | nil => exact .done (TypeExpr.reads_bracketRound_done element avoids)
  | cons pair others ih =>
    refine LoopReads.again [pair.1.val, pair.2.val]
      (TypeExpr.reads_bracketRound element pair.1 pair.2) (List.cons_ne_nil _ _) ?_
    rintro _ rfl
    exact ih _

open TypeExpr

mutual

/-- The rule of types reads every type that it has enough levels for. -/
theorem TypeForm.reads : ∀ (form : TypeForm) (levels room : Nat) {rest : List Token},
    form.nest ≤ levels → form.nest ≤ room → AvoidsHead typeGoesOn rest →
    (upTo levels).Reads room form.tokens rest (· = form.node)
  | .of first others, levels, room, rest, enough, left, avoids => by
    simp only [TypeForm.nest] at enough left
    obtain ⟨levels, rfl⟩ : ∃ inner, levels = inner + 1 := ⟨levels - 1, by omega⟩
    obtain ⟨room, rfl⟩ : ∃ inner, room = inner + 1 := ⟨room - 1, by omega⟩
    have goesOn : AvoidsHead arrayGoesOn (others.tokens ++ rest) :=
      others.avoidsHead (by decide) (avoids.mono (by decide))
    refine Reads.nested (Reads.bind (ArrayForm.reads first levels room (by omega) (by omega) goesOn)
      ?_)
    rintro _ rfl
    exact (UnionForm.reads others levels room (by omega) (by omega) avoids _).loop

/-- The rounds of a union read the array types behind the first one. -/
theorem UnionForm.reads : ∀ (form : UnionForm) (levels room : Nat) {rest : List Token},
    form.inside ≤ levels → form.inside ≤ room → AvoidsHead typeGoesOn rest → ∀ left,
    LoopReads (unionRound (upTo levels)) left room form.tokens rest (· = form.extend left)
  | .last, levels, room, rest, _, _, avoids, left =>
    .done (reads_unionRound_done left (avoids.mono (by decide)))
  | .bar mark next others, levels, room, rest, enough, roomy, avoids, left => by
    simp only [UnionForm.inside] at enough roomy
    have goesOn : AvoidsHead arrayGoesOn (others.tokens ++ rest) :=
      others.avoidsHead (by decide) (avoids.mono (by decide))
    have reads := ArrayForm.reads next levels room (by omega) (by omega)
      goesOn
    refine LoopReads.again (mark.val :: next.tokens)
      (reads_unionRound left mark next reads) (List.cons_ne_nil _ _) ?_
    rintro _ rfl
    exact UnionForm.reads others levels room (by omega) (by omega) avoids _

/-- The rule of array types reads every array type. -/
theorem ArrayForm.reads : ∀ (form : ArrayForm) (levels room : Nat) {rest : List Token},
    form.inside ≤ levels → form.inside ≤ room → AvoidsHead arrayGoesOn rest →
    (array (upTo levels)).Reads room form.tokens rest (· = form.node)
  | .of atom pairs, levels, room, rest, enough, roomy, avoids => by
    have goesOn : AvoidsHead [.less] (pairs.tokens ++ rest) :=
      pairs.avoidsHead (by decide) (avoids.mono (by decide))
    refine Reads.bind (AtomForm.reads atom levels room enough roomy goesOn) ?_
    rintro _ rfl
    exact (pairs.reads (avoids.mono (by decide)) _).loop

/-- The rule of atoms reads every atom. -/
theorem AtomForm.reads : ∀ (form : AtomForm) (levels room : Nat) {rest : List Token},
    form.inside ≤ levels → form.inside ≤ room → AvoidsHead [.less] rest →
    (atom (upTo levels)).Reads room form.tokens rest (· = form.node)
  | .name word, levels, room, rest, _, _, avoids => by
    intro nonempty before nesting _
    obtain ⟨next, others, rfl⟩ := List.exists_cons_of_ne_nil nonempty
    -- without `<` behind it a name is no generic type
    have other := avoids.kind_ne List.mem_cons_self
    simp [atom, AtomForm.tokens, word.property, other]
    rfl
  | .generic word opening first others closing, levels, room, rest, enough, roomy, _ => by
    simp only [AtomForm.inside] at enough roomy
    have argument := TypeForm.reads first levels room (by omega) (by omega)
      (others.avoidsHead (by decide) (closing.avoidsHead (by decide) rest))
    have rounds := (ArgumentsForm.reads others levels room (by omega)
      (by omega) (closing.avoidsHead (by decide) rest) [first.node]).loop
    intro nonempty before nesting left
    simp only [atom, generic, chain, AtomForm.tokens, List.cons_append, List.append_assoc]
    simp [word.property, opening.property]
    refine argument.ensures (by simp) left ?_
    rintro _ rfl
    refine rounds.ensures (by simp) left ?_
    rintro _ rfl
    simp [closing.property, nonempty]
    rfl
  | .object opening feeds body closing, levels, room, rest, enough, roomy, _ => by
    have close : AvoidsHead [.newline] (closing.val :: rest) :=
      closing.avoidsHead (by decide) rest
    have properties := ObjectForm.reads body levels room enough roomy closing rest
    intro nonempty before nesting left
    simp only [atom, object, AtomForm.tokens, List.cons_append, List.append_assoc]
    simp [opening.property]
    refine (feeds.reads (body.avoidsHead (by decide) close)).ensures (by simp) left ?_
    rintro _ _
    refine properties.ensures (by simp) left ?_
    rintro _ rfl
    simp [nonempty]
    rfl

/-- The rounds of type arguments read the arguments behind the first one. -/
theorem ArgumentsForm.reads : ∀ (form : ArgumentsForm) (levels room : Nat) {rest : List Token},
    form.inside ≤ levels → form.inside ≤ room → AvoidsHead (.comma :: typeGoesOn) rest →
    ∀ found, LoopReads (chainRound .comma (upTo levels)) found room form.tokens rest
      (· = found ++ form.nodes)
  | .last, levels, room, rest, _, _, avoids, found => by
    simp only [ArgumentsForm.nodes, List.append_nil]
    exact .done (reads_argumentRound_done found (avoids.mono (by decide)))
  | .comma mark next others, levels, room, rest, enough, roomy, avoids, found => by
    simp only [ArgumentsForm.inside] at enough roomy
    have goesOn : AvoidsHead typeGoesOn (others.tokens ++ rest) :=
      others.avoidsHead (by decide) (avoids.mono (by decide))
    have reads := TypeForm.reads next levels room (by omega) (by omega)
      goesOn
    refine LoopReads.again (mark.val :: next.tokens)
      (reads_argumentRound found mark next reads) (List.cons_ne_nil _ _) ?_
    rintro _ rfl
    have more := ArgumentsForm.reads others levels room (by omega)
      (by omega) avoids (found ++ [next.node])
    rw [List.append_assoc] at more
    exact more

/-- The rule of properties reads what stands before the closing brace. -/
theorem ObjectForm.reads : ∀ (form : ObjectForm) (levels room : Nat),
    form.inside ≤ levels → form.inside ≤ room →
    ∀ (close : TokenOf .rightBrace) (rest : List Token),
    (properties (upTo levels)).Reads room form.tokens (close.val :: rest) (· = form.nodes)
  | .empty, levels, room, _, _, close, rest =>
    (LoopReads.done (reads_propertyRound_done [] close rest)).loop
  | .properties first feeds others, levels, room, enough, roomy, close, rest => by
    simp only [ObjectForm.inside] at enough roomy
    -- neither the brace nor a comma goes on with a type or a property
    have goesOn : ∀ kinds, TokenKind.rightBrace ∉ kinds → TokenKind.comma ∉ kinds →
        AvoidsHead kinds (others.tokens ++ close.val :: rest) :=
      fun kinds other another => others.avoidsHead another (close.avoidsHead other rest)
    have reads := PropertyForm.reads first levels room (by omega) (by omega)
      (feeds.avoidsHead (by decide) (goesOn typeGoesOn (by decide) (by decide)))
    refine LoopReads.loop ?_
    rw [ObjectForm.tokens, ← List.append_assoc]
    refine LoopReads.again _
      (reads_propertyRound_first first feeds reads (goesOn _ (by decide) (by decide))) ?_ ?_
    · obtain ⟨word, more, tokens⟩ := first.exists_tokens
      simp [tokens]
    · rintro _ rfl
      exact PropertiesForm.reads others levels room (by omega) (by omega) close rest _ (by simp)

/-- The rule of a property reads every property. -/
theorem PropertyForm.reads : ∀ (form : PropertyForm) (levels room : Nat) {rest : List Token},
    form.inside ≤ levels → form.inside ≤ room → AvoidsHead typeGoesOn rest →
    (property (upTo levels)).Reads room form.tokens rest (· = form.node)
  | .of word colon type, levels, room, _, enough, roomy, avoids =>
    reads_property word colon type (TypeForm.reads type levels room enough roomy avoids)

/-- The rounds of properties read the properties behind the first one. -/
theorem PropertiesForm.reads : ∀ (form : PropertiesForm) (levels room : Nat),
    form.inside ≤ levels → form.inside ≤ room →
    ∀ (close : TokenOf .rightBrace) (rest : List Token) (found : List Node), found ≠ [] →
    LoopReads (propertyRound (upTo levels)) found room form.tokens (close.val :: rest)
      (· = found ++ form.nodes)
  | .last, levels, room, _, _, close, rest, found, _ => by
    simp only [PropertiesForm.nodes, List.append_nil]
    exact .done (reads_propertyRound_done found close rest)
  | .trailing mark feeds, levels, room, _, _, close, rest, found, nonempty => by
    simp only [PropertiesForm.nodes, List.append_nil]
    exact .done (reads_propertyRound_trailing found nonempty mark feeds close rest)
  | .comma mark feeds next feedsBehind others, levels, room, enough, roomy, close, rest, found,
    nonempty => by
    simp only [PropertiesForm.inside] at enough roomy
    -- neither the properties that follow nor the brace go on with the type before them
    have goesOn : ∀ kinds, TokenKind.rightBrace ∉ kinds → TokenKind.comma ∉ kinds →
        AvoidsHead kinds (others.tokens ++ close.val :: rest) :=
      fun kinds other another => others.avoidsHead another (close.avoidsHead other rest)
    have reads := PropertyForm.reads next levels room (by omega) (by omega)
      (feedsBehind.avoidsHead (by decide) (goesOn typeGoesOn (by decide) (by decide)))
    have round := reads_propertyRound found nonempty mark feeds next feedsBehind reads
      (goesOn _ (by decide) (by decide))
    have more := PropertiesForm.reads others levels room (by omega)
      (by omega) close rest (found ++ [next.node]) (by simp)
    have tokens : (PropertiesForm.comma mark feeds next feedsBehind others).tokens =
        mark.val :: (feeds.tokens ++ (next.tokens ++ feedsBehind.tokens)) ++ others.tokens := by
      simp [PropertiesForm.tokens]
    rw [tokens]
    refine LoopReads.again _ round (List.cons_ne_nil _ _) ?_
    rintro _ rfl
    rw [List.append_assoc] at more
    exact more

end

/-! ## Whole texts -/

/-- The rule of types reads every type that there is room for. -/
theorem TypeForm.reads_rule (form : TypeForm) {room : Nat} {rest : List Token}
    (roomy : form.nest ≤ room) (avoids : AvoidsHead typeGoesOn rest) :
    rule.Reads room form.tokens rest (· = form.node) := by
  intro nonempty before nesting left
  rw [rule, ensures_bind, ensures_room, nesting_facing]
  exact form.reads _ _ (Nat.le_trans roomy left) roomy avoids nonempty before nesting left

/-- The rule of whole texts reads every whole text up to the end of the input. -/
theorem WholeTypeForm.reads (form : WholeTypeForm) {room : Nat} (roomy : form.type.nest ≤ room) :
    complete.Reads room
      (form.feeds.tokens ++ (form.type.tokens ++ form.feedsBehind.tokens)) [form.finish.val]
      (· = form.type.node) := by
  have type := form.type.reads_rule roomy
    (form.feedsBehind.avoidsHead (by decide) (form.finish.avoidsHead (by decide) []))
  intro nonempty before nesting left
  simp only [complete, List.append_assoc]
  simp
  refine (form.feeds.reads (form.type.avoidsHead (by decide) _)).ensures (by simp) left ?_
  rintro _ _
  refine type.ensures (by simp) left ?_
  rintro _ rfl
  refine (form.feedsBehind.reads (form.finish.avoidsHead (by decide) [])).ensures nonempty left ?_
  rintro _ _
  simp [form.finish.property]

end DocGrammar
