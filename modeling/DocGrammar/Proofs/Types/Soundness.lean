import DocGrammar.Proofs.Rules.Progress
import DocGrammar.Proofs.Types.Unique

/-! # What the rule of types accepts is a type

Each rule of the type grammar, run on tokens that end with the input, reads the tokens of a
derivation and builds its tree, or it fails with an error about types or about the depth. The
depth that a derivation needs never exceeds the room that the rule had.

* **`TypeExpr.Refusable`** — the causes that a type is refused for.
* **`TypeExpr.yields_rule`** — the rule of types reads a type.
* **`TypeExpr.ensures_complete`** — the rule of whole texts reads a whole text. -/

namespace DocGrammar

/-- Tokens that are all line ends are those of line ends. -/
theorem Feeds.exists_tokens {read : List Token} (newlines : ∀ token ∈ read, token.kind = .newline) :
    ∃ feeds : Feeds, feeds.tokens = read := by
  refine ⟨read.attach.map fun token => ⟨token.val, newlines token.val token.property⟩, ?_⟩
  rw [Feeds.tokens, List.map_map]
  exact List.attach_map_subtype_val read

namespace TypeExpr

open Rule

/-- The causes that a type expression is refused for. -/
def Refusable (cause : Cause) : Prop := cause.kind = .typing ∨ cause.kind = .depth

theorem refusable_malformedType (found : TokenKind) (value : String) (wanted : List String) :
    Refusable (.malformedType found value wanted) := .inl rfl

theorem refusable_tooDeep (limit : Nat) : Refusable (.tooDeep limit) := .inr rfl

/-- A section can be dropped for a type that is refused. -/
theorem Refusable.recoverable {cause : Cause} (refusable : Refusable cause) :
    cause.Recoverable := by
  rcases refusable with kind | kind
  · rw [Cause.Recoverable, kind]
    rfl
  · rw [Cause.Recoverable, kind]
    rfl

@[simp] theorem ensures_malformed {α : Type} {state : RuleState} {post : α → RuleState → Prop}
    {fails : Failure → RuleState → Prop} (token : Token) (wanted : List String) :
    (malformed token wanted : Rule α).Ensures state post fails ↔
      fails (.refused ⟨.malformedType token.kind token.value wanted, token.span⟩) state := Iff.rfl

/-- A malformed type is refused at any place that a move leads to. -/
theorem faults_malformed {start state : RuleState} {read : List Token}
    (moved : start.Passes read state) (token : Token) (wanted : List String) :
    start.Faults Refusable
      (.refused ⟨.malformedType token.kind token.value wanted, token.span⟩) state :=
  .of_passes moved (RuleState.faults_refused _ (refusable_malformedType _ _ _))

/-! ## What each rule reads -/

/-- A type that needs no more levels than there is room for. -/
def ReadsType (room : Nat) (read : List Token) (node : Node) : Prop :=
  ∃ form : TypeForm, form.tokens = read ∧ form.node = node ∧ form.nest ≤ room

/-- An array type with no more levels inside than there is room for. -/
def ReadsArray (room : Nat) (read : List Token) (node : Node) : Prop :=
  ∃ form : ArrayForm, form.tokens = read ∧ form.node = node ∧ form.inside ≤ room

/-- An atom with no more levels inside than there is room for. -/
def ReadsAtom (room : Nat) (read : List Token) (node : Node) : Prop :=
  ∃ form : AtomForm, form.tokens = read ∧ form.node = node ∧ form.inside ≤ room

/-- A property with no more levels inside than there is room for. -/
def ReadsProperty (room : Nat) (read : List Token) (node : Node) : Prop :=
  ∃ form : PropertyForm, form.tokens = read ∧ form.node = node ∧ form.inside ≤ room

/-- A round of the properties of an object type. All but the first one start with a comma. -/
def ReadsPropertyRound (found : List Node) (room : Nat) (read : List Token) :
    Round (List Node) (List Node) → Prop
  | .done result => result = found ∧ (read = [] ∨ found ≠ [] ∧
      ∃ (mark : TokenOf .comma) (feeds : Feeds), read = mark.val :: feeds.tokens)
  | .again next => ∃ (form : PropertyForm) (feedsBehind : Feeds), form.inside ≤ room ∧
      next = found ++ [form.node] ∧
      (found = [] ∧ read = form.tokens ++ feedsBehind.tokens ∨
        found ≠ [] ∧ ∃ (mark : TokenOf .comma) (feeds : Feeds),
          read = mark.val :: (feeds.tokens ++ (form.tokens ++ feedsBehind.tokens)))

/-- A round of the type arguments behind the first one. -/
def ReadsArgumentRound (found : List Node) (room : Nat) (read : List Token) :
    Round (List Node) (List Node) → Prop
  | .done result => result = found ∧ read = []
  | .again next => ∃ (mark : TokenOf .comma) (form : TypeForm), form.nest ≤ room ∧
      next = found ++ [form.node] ∧ read = mark.val :: form.tokens

/-- A round of the bracket pairs behind an atom. -/
def ReadsBracketRound (element : Node) (_room : Nat) (read : List Token) :
    Round Node Node → Prop
  | .done result => result = element ∧ read = []
  | .again next => ∃ (opening : TokenOf .leftBracket) (closing : TokenOf .rightBracket),
      next = arrayNode element closing.val ∧ read = [opening.val, closing.val]

/-- A round of the array types behind the first one. -/
def ReadsUnionRound (left : Node) (room : Nat) (read : List Token) : Round Node Node → Prop
  | .done result => result = left ∧ read = []
  | .again next => ∃ (mark : TokenOf .pipe) (form : ArrayForm), form.inside ≤ room ∧
      next = unionNode left form.node ∧ read = mark.val :: form.tokens

/-! ## What rounds read together -/

theorem exists_propertiesForm {room : Nat} {found result : List Node} {read : List Token}
    (rounds : Rounds ReadsPropertyRound room found read result) (nonempty : found ≠ []) :
    ∃ form : PropertiesForm, form.tokens = read ∧ result = found ++ form.nodes ∧
      form.inside ≤ room := by
  induction rounds with
  | done last =>
    obtain ⟨rfl, rfl | ⟨_, mark, feeds, rfl⟩⟩ := last
    · exact ⟨.last, rfl, (List.append_nil _).symm, Nat.zero_le _⟩
    · exact ⟨.trailing mark feeds, rfl, (List.append_nil _).symm, Nat.zero_le _⟩
  | again first others ih =>
    obtain ⟨form, feedsBehind, inside, rfl, ⟨empty, _⟩ | ⟨_, mark, feeds, rfl⟩⟩ := first
    · exact absurd empty nonempty
    · obtain ⟨behind, rfl, nodes, insideBehind⟩ := ih (by simp)
      refine ⟨.comma mark feeds form feedsBehind behind, ?_, ?_,
        Nat.max_le.mpr ⟨inside, insideBehind⟩⟩
      · simp [PropertiesForm.tokens]
      · rw [nodes, List.append_assoc]
        rfl

theorem exists_objectForm {room : Nat} {result : List Node} {read : List Token}
    (rounds : Rounds ReadsPropertyRound room [] read result) :
    ∃ form : ObjectForm, form.tokens = read ∧ form.nodes = result ∧ form.inside ≤ room := by
  cases rounds with
  | done last =>
    obtain ⟨rfl, rfl | ⟨nonempty, _⟩⟩ := last
    · exact ⟨.empty, rfl, rfl, Nat.zero_le _⟩
    · exact absurd rfl nonempty
  | again first others =>
    obtain ⟨form, feedsBehind, inside, rfl, ⟨_, rfl⟩ | ⟨nonempty, _⟩⟩ := first
    · obtain ⟨behind, rfl, nodes, insideBehind⟩ := exists_propertiesForm others (by simp)
      refine ⟨.properties form feedsBehind behind, ?_, nodes.symm,
        Nat.max_le.mpr ⟨inside, insideBehind⟩⟩
      rw [ObjectForm.tokens, List.append_assoc]
    · exact absurd rfl nonempty

theorem exists_argumentsForm {room : Nat} {found result : List Node} {read : List Token}
    (rounds : Rounds ReadsArgumentRound room found read result) :
    ∃ form : ArgumentsForm, form.tokens = read ∧ result = found ++ form.nodes ∧
      form.inside ≤ room := by
  induction rounds with
  | done last =>
    obtain ⟨rfl, rfl⟩ := last
    exact ⟨.last, rfl, (List.append_nil _).symm, Nat.zero_le _⟩
  | again first others ih =>
    obtain ⟨mark, form, nest, rfl, rfl⟩ := first
    obtain ⟨behind, rfl, nodes, insideBehind⟩ := ih
    refine ⟨.comma mark form behind, rfl, ?_, Nat.max_le.mpr ⟨nest, insideBehind⟩⟩
    rw [nodes, List.append_assoc]
    rfl

theorem exists_bracketPairs {room : Nat} {element result : Node} {read : List Token}
    (rounds : Rounds ReadsBracketRound room element read result) :
    ∃ pairs : BracketPairs, pairs.tokens = read ∧ pairs.extend element = result := by
  induction rounds with
  | done last =>
    obtain ⟨rfl, rfl⟩ := last
    exact ⟨[], rfl, rfl⟩
  | again first others ih =>
    obtain ⟨opening, closing, rfl, rfl⟩ := first
    obtain ⟨behind, rfl, node⟩ := ih
    exact ⟨(opening, closing) :: behind, rfl, node⟩

theorem exists_unionForm {room : Nat} {left result : Node} {read : List Token}
    (rounds : Rounds ReadsUnionRound room left read result) :
    ∃ form : UnionForm, form.tokens = read ∧ form.extend left = result ∧ form.inside ≤ room := by
  induction rounds with
  | done last =>
    obtain ⟨rfl, rfl⟩ := last
    exact ⟨.last, rfl, rfl, Nat.zero_le _⟩
  | again first others ih =>
    obtain ⟨mark, form, inside, rfl, rfl⟩ := first
    obtain ⟨behind, rfl, node, insideBehind⟩ := ih
    exact ⟨.bar mark form behind, rfl, node, Nat.max_le.mpr ⟨inside, insideBehind⟩⟩

/-! ## The rules -/

section

variable {inner : Rule Node}

theorem yields_property (types : inner.Yields Refusable ReadsType) :
    (property inner).Yields Refusable ReadsProperty := by
  intro state ends
  simp only [property, ensures_bind, ensures_current, ensures_ite, ensures_malformed,
    ensures_advance, ensures_pure]
  by_cases name : state.cursor.current.kind = .identifier
  · have named := (RuleState.Passes.refl state).advanced ends name (by decide)
    rw [if_neg (not_not_intro name)]
    by_cases mark : state.advanced.cursor.current.kind = .colon
    · have marked := named.advanced ends mark (by decide)
      rw [if_neg (not_not_intro mark)]
      refine types.ensures ends marked ?_
      rintro node final more moved _ ⟨form, rfl, rfl, nest⟩
      exact ⟨_, moved, .of ⟨_, name⟩ ⟨_, mark⟩ form, rfl, rfl, nest⟩
    · rw [if_pos mark]
      exact faults_malformed named _ _
  · rw [if_pos name]
    exact faults_malformed (.refl state) _ _

/-- What one round of the properties of an object type reads. -/
theorem yields_propertyRound (types : inner.Yields Refusable ReadsType) (found : List Node) :
    (propertyRound inner found).Yields Refusable (ReadsPropertyRound found) := by
  have property := yields_property types
  intro state ends
  simp only [propertyRound, ensures_bind, ensures_current, ensures_ite, ensures_malformed,
    ensures_advance, ensures_pure, ensures_isAt, decide_eq_true_eq]
  by_cases close : state.cursor.current.kind = .rightBrace
  · rw [if_pos close]
    exact ⟨[], .refl state, rfl, .inl rfl⟩
  rw [if_neg close]
  by_cases first : found.isEmpty = true
  · rw [if_pos first]
    -- the first property stands behind no comma
    refine property.ensures ends (.refl state) ?_
    rintro node middle read moved _ ⟨form, rfl, rfl, inside⟩
    refine ensures_skip (by decide) (moved.endsInput ends) ?_
    intro behind final skipped newlines _
    obtain ⟨feeds, rfl⟩ := Feeds.exists_tokens (by simpa using newlines)
    exact ⟨_, moved.trans skipped, form, feeds, inside, rfl, .inl ⟨by simpa using first, by simp⟩⟩
  · have nonempty : found ≠ [] := by simpa using first
    rw [if_neg first]
    by_cases mark : state.cursor.current.kind = .comma
    · -- any other stands behind a comma, unless the comma is the last one
      have marked := (RuleState.Passes.refl state).advanced ends mark (by decide)
      rw [if_neg (not_not_intro mark)]
      refine ensures_skip (by decide) (marked.endsInput ends) ?_
      intro skippedRead start skipped newlines _
      obtain ⟨feeds, rfl⟩ := Feeds.exists_tokens (by simpa using newlines)
      have reached := marked.trans skipped
      by_cases close : start.cursor.current.kind = .rightBrace
      · rw [if_pos close]
        exact ⟨_, reached, rfl, .inr ⟨nonempty, ⟨_, mark⟩, feeds, by simp⟩⟩
      · rw [if_neg close]
        refine property.ensures ends reached ?_
        rintro node middle read moved _ ⟨form, rfl, rfl, inside⟩
        refine ensures_skip (by decide) (moved.endsInput ends) ?_
        intro behind final skipped newlines _
        obtain ⟨feedsBehind, rfl⟩ := Feeds.exists_tokens (by simpa using newlines)
        exact ⟨_, moved.trans skipped, form, feedsBehind, inside, rfl,
          .inr ⟨nonempty, ⟨_, mark⟩, feeds, by simp⟩⟩
    · rw [if_pos mark]
      exact faults_malformed (.refl state) _ _

/-- The rule of properties reads what stands between the braces of an object type. -/
theorem yields_properties (types : inner.Yields Refusable ReadsType) :
    (properties inner).Yields Refusable fun room read nodes =>
      ∃ form : ObjectForm, form.tokens = read ∧ form.nodes = nodes ∧ form.inside ≤ room := by
  have rounds : (properties inner).Yields Refusable fun room read result =>
      Rounds ReadsPropertyRound room [] read result := by
    refine Yields.loop (yields_propertyRound types) ?_ []
    rintro found room read next ⟨form, feedsBehind, _, _, ⟨_, rfl⟩ | ⟨_, mark, feeds, rfl⟩⟩
    · obtain ⟨word, more, tokens⟩ := form.exists_tokens
      simp [tokens]
    · simp
  exact rounds.mono fun room read nodes => exists_objectForm

/-- The properties of an object type end at a closing brace. -/
theorem ensures_properties_close (inner : Rule Node) (state : RuleState) :
    (properties inner).Ensures state
      (fun _ final => final.cursor.current.kind = .rightBrace) (fun _ _ => True) := by
  refine ensures_loop_done ?_ [] state
  intro found state
  simp only [propertyRound, ensures_bind, ensures_current, ensures_ite, ensures_malformed,
    ensures_advance, ensures_pure, ensures_isAt, decide_eq_true_eq]
  simp +contextual

/-- The rounds of type arguments read the arguments behind the first one. -/
theorem yields_argumentRound (types : inner.Yields Refusable ReadsType) (found : List Node) :
    (chainRound .comma inner found).Yields Refusable (ReadsArgumentRound found) := by
  intro state ends
  simp only [chainRound, ensures_bind, ensures_isAt, ensures_ite, ensures_advance, ensures_pure,
    decide_eq_true_eq]
  by_cases mark : state.cursor.current.kind = .comma
  · have marked := (RuleState.Passes.refl state).advanced ends mark (by decide)
    rw [if_pos mark]
    refine types.ensures ends marked ?_
    rintro node final more moved _ ⟨form, rfl, rfl, nest⟩
    exact ⟨_, moved, ⟨_, mark⟩, form, nest, rfl, rfl⟩
  · rw [if_neg mark]
    exact ⟨[], .refl state, rfl, rfl⟩

/-- The rule of objects reads an object type where an opening brace stands. -/
theorem ensures_object (types : inner.Yields Refusable ReadsType) {state : RuleState}
    (ends : EndsInput state.cursor.rest) (brace : state.cursor.current.kind = .leftBrace) :
    (object inner).Ensures state
      (fun node final => ∃ read, state.Passes read final ∧
        ReadsAtom state.nesting.room read (wrap node)) (state.Faults Refusable) := by
  simp only [object, ensures_bind, ensures_advance, ensures_pure]
  have opened := (RuleState.Passes.refl state).advanced ends brace (by decide)
  refine ensures_skip (by decide) (opened.endsInput ends) ?_
  intro skippedRead start skipped newlines _
  obtain ⟨feeds, rfl⟩ := Feeds.exists_tokens (by simpa using newlines)
  have reached := opened.trans skipped
  have body := (yields_properties types) start (reached.endsInput ends)
  refine (body.and (ensures_properties_close inner start)).mono ?_ ?_
  · rintro nodes middle ⟨⟨read, moved, form, rfl, rfl, inside⟩, close⟩
    have closed := (reached.trans moved).advanced ends close (by decide)
    rw [reached.nesting] at inside
    exact ⟨_, closed, .object ⟨_, brace⟩ feeds form ⟨_, close⟩, by simp [AtomForm.tokens], rfl,
      inside⟩
  · rintro failure final ⟨fault, _⟩
    exact fault.of_passes reached

/-- The rule of generics reads a name with arguments where a name and `<` stand. -/
theorem ensures_generic (types : inner.Yields Refusable ReadsType) {state : RuleState}
    (ends : EndsInput state.cursor.rest) (name : state.cursor.current.kind = .identifier)
    (less : state.advanced.cursor.current.kind = .less) :
    (generic inner).Ensures state
      (fun node final => ∃ read, state.Passes read final ∧
        ReadsAtom state.nesting.room read (wrap node)) (state.Faults Refusable) := by
  have named := (RuleState.Passes.refl state).advanced ends name (by decide)
  have opened := named.advanced ends less (by decide)
  simp only [generic, chain, ensures_bind, ensures_advance, ensures_pure, ensures_current,
    ensures_ite, ensures_malformed]
  refine types.ensures ends opened ?_
  rintro node start read first _ ⟨form, rfl, rfl, nest⟩
  have rounds : (Rule.loop (chainRound .comma inner) [form.node]).Yields Refusable
      fun room read result => Rounds ReadsArgumentRound room [form.node] read result := by
    refine Yields.loop (yields_argumentRound types) ?_ _
    rintro found room read next ⟨mark, argument, _, _, rfl⟩
    exact List.cons_ne_nil _ _
  refine rounds.ensures ends first ?_
  intro nodes middle more moved _ others
  obtain ⟨behind, rfl, rfl, insideBehind⟩ := exists_argumentsForm others
  -- behind the last argument stands the closing mark, or the type is malformed
  by_cases close : middle.cursor.current.kind = .greater
  · have closed := moved.advanced ends close (by decide)
    rw [if_neg (not_not_intro close)]
    exact ⟨_, closed, .generic ⟨_, name⟩ ⟨_, less⟩ form behind ⟨_, close⟩,
      by simp [AtomForm.tokens], rfl, Nat.max_le.mpr ⟨nest, insideBehind⟩⟩
  · rw [if_pos close]
    exact faults_malformed moved _ _

theorem yields_atom (types : inner.Yields Refusable ReadsType) :
    (atom inner).Yields Refusable ReadsAtom := by
  intro state ends
  simp only [atom, ensures_bind, ensures_current, ensures_ite, ensures_malformed, ensures_peek,
    ensures_advance, ensures_pure]
  by_cases brace : state.cursor.current.kind = .leftBrace
  · rw [if_pos brace]
    exact ensures_object types ends brace
  rw [if_neg brace]
  by_cases name : state.cursor.current.kind = .identifier
  · rw [if_neg (not_not_intro name),
      RuleState.peek_one ends (by rw [name]; decide)]
    by_cases less : state.advanced.cursor.current.kind = .less
    · rw [if_pos less]
      exact ensures_generic types ends name less
    · have named := (RuleState.Passes.refl state).advanced ends name (by decide)
      rw [if_neg less]
      exact ⟨_, named, .name ⟨_, name⟩, rfl, rfl, Nat.zero_le _⟩
  · rw [if_pos name]
    exact faults_malformed (.refl state) _ _

theorem yields_bracketRound (element : Node) :
    (bracketRound element).Yields Refusable (ReadsBracketRound element) := by
  intro state ends
  simp only [bracketRound, ensures_bind, ensures_isAt, ensures_peek, ensures_ite, ensures_advance,
    ensures_pure, decide_eq_true_eq]
  have stays : ∃ read, state.Passes read state ∧
      ReadsBracketRound element state.nesting.room read (.done element) :=
    ⟨[], .refl state, rfl, rfl⟩
  by_cases opening : state.cursor.current.kind = .leftBracket
  · rw [if_pos opening, RuleState.peek_one ends (by rw [opening]; decide)]
    by_cases closing : state.advanced.cursor.current.kind = .rightBracket
    · have opened := (RuleState.Passes.refl state).advanced ends opening (by decide)
      have closed := opened.advanced ends closing (by decide)
      rw [if_pos closing]
      exact ⟨_, closed, ⟨_, opening⟩, ⟨_, closing⟩, rfl, rfl⟩
    · rw [if_neg closing]
      exact stays
  · rw [if_neg opening]
    exact stays

theorem yields_array (types : inner.Yields Refusable ReadsType) :
    (array inner).Yields Refusable ReadsArray := by
  refine (yields_atom types).bind fun element => ?_
  have rounds : (Rule.loop bracketRound element).Yields Refusable fun room read result =>
      Rounds ReadsBracketRound room element read result := by
    refine Yields.loop yields_bracketRound ?_ element
    rintro found room read next ⟨opening, closing, _, rfl⟩
    exact List.cons_ne_nil _ _
  refine rounds.mono ?_
  rintro room more result others read ⟨form, rfl, rfl, inside⟩
  obtain ⟨pairs, rfl, node⟩ := exists_bracketPairs others
  exact ⟨.of form pairs, rfl, node, inside⟩

theorem yields_unionRound (types : inner.Yields Refusable ReadsType) (left : Node) :
    (unionRound inner left).Yields Refusable (ReadsUnionRound left) := by
  intro state ends
  simp only [unionRound, ensures_bind, ensures_isAt, ensures_ite, ensures_advance, ensures_pure,
    decide_eq_true_eq]
  by_cases mark : state.cursor.current.kind = .pipe
  · have marked := (RuleState.Passes.refl state).advanced ends mark (by decide)
    rw [if_pos mark]
    refine (yields_array types).ensures ends marked ?_
    rintro node final more moved _ ⟨form, rfl, rfl, inside⟩
    exact ⟨_, moved, ⟨_, mark⟩, form, inside, rfl, rfl⟩
  · rw [if_neg mark]
    exact ⟨[], .refl state, rfl, rfl⟩

/-- The rule of unions reads a type, not counting its own level. -/
theorem yields_union (types : inner.Yields Refusable ReadsType) :
    (union inner).Yields Refusable fun room read node => ReadsType (room + 1) read node := by
  refine (yields_array types).bind fun left => ?_
  have rounds : (Rule.loop (unionRound inner) left).Yields Refusable fun room read result =>
      Rounds ReadsUnionRound room left read result := by
    refine Yields.loop (yields_unionRound types) ?_ left
    rintro found room read next ⟨mark, form, _, _, rfl⟩
    exact List.cons_ne_nil _ _
  refine rounds.mono ?_
  rintro room more result rounds read ⟨first, rfl, rfl, inside⟩
  obtain ⟨others, rfl, node, insideBehind⟩ := exists_unionForm rounds
  refine ⟨.of first others, rfl, node, ?_⟩
  rw [TypeForm.nest, Nat.add_comm]
  exact Nat.succ_le_succ (Nat.max_le.mpr ⟨inside, insideBehind⟩)

end

/-! ## Types and whole texts -/

/-- Whatever number of levels the rule of types is given, what it reads is a type. -/
theorem yields_upTo (levels : Nat) : (upTo levels).Yields Refusable ReadsType := by
  induction levels with
  | zero =>
    intro state _
    exact RuleState.faults_refused _ (refusable_tooDeep _)
  | succ levels ih =>
    refine ((yields_union ih).nested refusable_tooDeep).mono ?_
    rintro room read node ⟨inner, rfl, holds⟩
    exact holds

theorem yields_rule : rule.Yields Refusable ReadsType := by
  intro state ends
  rw [rule, ensures_bind, ensures_room]
  exact yields_upTo _ state ends

/-- The rule of whole texts reads a whole text. -/
theorem ensures_complete (state : RuleState) (ends : EndsInput state.cursor.rest) :
    complete.Ensures state
      (fun node _ => ∃ form : WholeTypeForm, form.tokens = state.cursor.rest ∧
        form.type.node = node ∧ form.type.nest ≤ state.nesting.room)
      (state.Faults Refusable) := by
  simp only [complete, ensures_bind, ensures_current, ensures_ite, ensures_malformed,
    ensures_pure]
  refine ensures_skip (by decide) ends ?_
  intro read start skipped newlines _
  obtain ⟨feeds, rfl⟩ := Feeds.exists_tokens (by simpa using newlines)
  refine yields_rule.ensures ends skipped ?_
  rintro node middle more moved _ ⟨form, rfl, rfl, nest⟩
  refine ensures_skip (by decide) (moved.endsInput ends) ?_
  intro behind final skippedBehind newlines _
  obtain ⟨feedsBehind, rfl⟩ := Feeds.exists_tokens (by simpa using newlines)
  have passed := moved.trans skippedBehind
  -- behind the line ends the tokens are over, or the text is malformed
  by_cases finish : final.cursor.current.kind = .endOfInput
  · rw [if_neg (not_not_intro finish)]
    have last : final.cursor.after = [] := EndsInput.eq_nil (passed.endsInput ends) finish
    refine ⟨⟨feeds, form, feedsBehind, ⟨_, finish⟩⟩, ?_, rfl, nest⟩
    rw [passed.rest, Cursor.rest, last]
    simp [WholeTypeForm.tokens]
  · rw [if_pos finish]
    exact faults_malformed passed _ _

end TypeExpr

end DocGrammar
