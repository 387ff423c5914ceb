import DocGrammar.Proofs.Trees.Built
import DocGrammar.Proofs.Types.Soundness

/-! # The trees of types

The tree of a derivation stands on its tokens and conforms to the schema of either dialect. Arrays
are atoms with brackets behind them, so neither an element type nor the right side of a union is a
union itself.

* **`IsPlainType`** — a type that is no union.
* **`TypeForm.built`** — the tree of a derivation.
* **`TypeExpr.gives_rule`** — what the rule of types builds. -/

namespace DocGrammar

variable {dialect : Dialect} {tokens more : List Token} {node inner left right : Node}

/-- A type that is built on some tokens and holds no union. -/
structure IsPlainType (dialect : Dialect) (tokens : List Token) (node : Node) : Prop where
  /-- It is a type. -/
  built : Built dialect [.typeSpecification] tokens [node]
  /-- Its alternative is no union. -/
  plain : ∀ child ∈ node.children, child.kind ≠ .unionType

/-- A type may stand where unions are excluded if it is none. -/
theorem IsPlainType.admits {occurrence : Occurrence} (type : IsPlainType dialect tokens node) :
    Slot.admits ⟨occurrence, [.typeSpecification], none, [.unionType]⟩ node = true :=
  Slot.admits_iff.mpr ⟨type.built.kind_mem, type.built.fields node List.mem_cons_self,
    fun child member => by simpa using type.plain child member⟩

/-! ## Alternatives -/

theorem extent_singleton (node : Node) : Node.extent [node] = node.span := by
  obtain ⟨kind, children, text, field, span⟩ := node
  cases span <;> rfl

/-- Every type is wrapped. -/
theorem built_wrap (built : Built dialect NodeKind.typeAlternatives tokens [inner]) :
    Built dialect [.typeSpecification] tokens [TypeExpr.wrap inner] := by
  have holds : NodeKind.typeSpecification.Holds dialect none [inner] :=
    .first (NodeKind.contents_eq rfl rfl) (Slot.fill_one rfl built.admits_single rfl) rfl rfl
  have whole := built.toSound.branch (List.cons_ne_nil _ _) holds
  rwa [extent_singleton] at whole

theorem isPlainType_wrap {kind : NodeKind} (built : Built dialect [kind] tokens [inner])
    (member : kind ∈ NodeKind.typeAlternatives) (other : kind ≠ .unionType) :
    IsPlainType dialect tokens (TypeExpr.wrap inner) := by
  refine ⟨built_wrap (built.mono fun _ same => List.mem_singleton.mp same ▸ member),
    fun child isInner => ?_⟩
  rw [List.mem_singleton.mp isInner, List.mem_singleton.mp built.kind_mem]
  exact other

/-- A single name is a type. -/
theorem isPlainType_namedNode (word : TokenOf .identifier) :
    IsPlainType dialect [word.val] (namedNode word.val) := by
  unfold namedNode
  split
  · exact isPlainType_wrap (built_leaf word.property rfl rfl (NodeKind.contents_eq rfl rfl))
      (by decide) (by decide)
  · exact isPlainType_wrap (built_identifier word.property) (by decide) (by decide)

/-- An array of a type. -/
theorem isPlainType_arrayNode (element : IsPlainType dialect tokens inner)
    (opening : TokenOf .leftBracket) (closing : TokenOf .rightBracket) :
    IsPlainType dialect (tokens ++ [opening.val, closing.val]) (arrayNode inner closing.val) := by
  have holds : NodeKind.arrayType.Holds dialect none [inner] :=
    .first (NodeKind.contents_eq rfl rfl) (Slot.fill_one rfl element.admits rfl) rfl rfl
  have solid := TokenKind.isSolid_of_eq closing.property rfl
  have whole := (element.built.toSound.extend [opening.val]).spanTo rfl solid holds
  rw [List.append_assoc] at whole
  exact isPlainType_wrap whole (by decide) (by decide)

theorem isPlainType_extend (element : IsPlainType dialect tokens inner) (pairs : BracketPairs) :
    IsPlainType dialect (tokens ++ pairs.tokens) (pairs.extend inner) := by
  induction pairs generalizing tokens inner with
  | nil =>
    show IsPlainType dialect (tokens ++ []) inner
    rwa [List.append_nil]
  | cons pair pairs ih =>
    have whole := ih (isPlainType_arrayNode element pair.1 pair.2)
    rw [List.append_assoc] at whole
    exact whole

/-- The union of a type with one that is no union. -/
theorem built_unionNode (first : Built dialect [.typeSpecification] tokens [left])
    (mark : Token) (second : IsPlainType dialect more right) :
    Built dialect [.typeSpecification] (tokens ++ mark :: more) [unionNode left right] := by
  have holds : NodeKind.unionType.Holds dialect none [left, right] :=
    .first (NodeKind.contents_eq rfl rfl)
      (Slot.fill_one rfl first.admits_single (Slot.fill_one rfl second.admits rfl)) rfl rfl
  have whole := (first.toSound.append (second.built.toSound.skipAll [mark])).branch
    (List.cons_ne_nil _ _) holds
  exact built_wrap (whole.mono (by decide))

/-! ## Derivations -/

mutual

/-- The tree of a type. -/
theorem TypeForm.built : ∀ form : TypeForm,
    Built dialect [.typeSpecification] form.tokens [form.node]
  | .of first others => others.built first.built.built

/-- A type and the array types behind it. -/
theorem UnionForm.built : ∀ (form : UnionForm) {tokens : List Token} {left : Node},
    Built dialect [.typeSpecification] tokens [left] →
    Built dialect [.typeSpecification] (tokens ++ form.tokens) [form.extend left]
  | .last, tokens, left, first => by
    rw [UnionForm.tokens, List.append_nil]
    exact first
  | .bar mark next others, tokens, left, first => by
    have whole := others.built (built_unionNode first mark.val next.built)
    rw [List.append_assoc] at whole
    exact whole

/-- The tree of an array type. -/
theorem ArrayForm.built : ∀ form : ArrayForm, IsPlainType dialect form.tokens form.node
  | .of atom pairs => isPlainType_extend atom.built pairs

/-- The tree of an atom. -/
theorem AtomForm.built : ∀ form : AtomForm, IsPlainType dialect form.tokens form.node
  | .name word => isPlainType_namedNode word
  | .generic word opening first others closing => by
    -- the node spans its name and, past its arguments, the closing mark
    have arguments : Built dialect [.typeSpecification] (first.tokens ++ others.tokens)
        (first.node :: others.nodes) := first.built.append others.built
    have name : Built dialect [.identifier] [word.val] [.leaf .identifier word.val] :=
      built_identifier word.property
    have holds : NodeKind.genericType.Holds dialect none
        (.leaf .identifier word.val :: first.node :: others.nodes) :=
      .first (NodeKind.contents_eq rfl rfl) (Slot.fill_one rfl name.admits_single
        (Slot.fill_several rfl (List.cons_ne_nil _ _) arguments.admits)) rfl rfl
    have solid := TokenKind.isSolid_of_eq closing.property rfl
    have whole := (name.toSound.append (arguments.toSound.skipAll [opening.val])).spanTo rfl solid
      holds
    rw [AtomForm.tokens, ← List.append_assoc first.tokens]
    exact isPlainType_wrap whole (by decide) (by decide)
  | .object opening feeds body closing => by
    have properties : Built dialect [.propertyType] body.tokens body.nodes := body.built
    have holds : NodeKind.objectType.Holds dialect none body.nodes :=
      .first (NodeKind.contents_eq rfl rfl) (Slot.fill_any rfl properties.admits) rfl rfl
    have solid := TokenKind.isSolid_of_eq opening.property rfl
    have solid' := TokenKind.isSolid_of_eq closing.property rfl
    have whole := (properties.toSound.skipAll feeds.tokens).between solid solid' holds
    rw [AtomForm.tokens, ← List.append_assoc feeds.tokens]
    exact isPlainType_wrap whole (by decide) (by decide)

/-- The trees of the arguments behind the first one. -/
theorem ArgumentsForm.built : ∀ form : ArgumentsForm,
    Built dialect [.typeSpecification] form.tokens form.nodes
  | .last => .none
  | .comma mark next others => (next.built.append others.built).skipAll [mark.val]

/-- The trees of the properties of an object type. -/
theorem ObjectForm.built : ∀ form : ObjectForm,
    Built dialect [.propertyType] form.tokens form.nodes
  | .empty => .none
  | .properties first feeds others => first.built.append (others.built.skipAll feeds.tokens)

/-- The tree of a property. -/
theorem PropertyForm.built : ∀ form : PropertyForm,
    Built dialect [.propertyType] form.tokens [form.node]
  | .of word colon type => by
    have name : Built dialect [.identifier] [word.val] [.leaf .identifier word.val] :=
      built_identifier word.property
    have inner : Built dialect [.typeSpecification] type.tokens [type.node] := type.built
    have holds : NodeKind.propertyType.Holds dialect none
        [.leaf .identifier word.val, type.node] :=
      .first (NodeKind.contents_eq rfl rfl) (Slot.fill_one rfl name.admits_single
        (Slot.fill_one rfl inner.admits_single rfl)) rfl rfl
    exact (name.toSound.append (inner.toSound.skipAll [colon.val])).branch
      (List.cons_ne_nil _ _) holds

/-- The trees of the properties behind the first one. -/
theorem PropertiesForm.built : ∀ form : PropertiesForm,
    Built dialect [.propertyType] form.tokens form.nodes
  | .last => .none
  | .trailing _ _ => .none
  | .comma mark feeds next feedsBehind others =>
    ((next.built.append (others.built.skipAll feedsBehind.tokens)).skipAll feeds.tokens).skipAll
      [mark.val]

end

/-- The rule of types builds a type. -/
theorem TypeExpr.gives_rule (dialect : Dialect) :
    TypeExpr.rule.Gives fun read node => Built dialect [.typeSpecification] read [node] := by
  refine (yields_rule.mono_causes fun _ refusable => refusable.recoverable).mono ?_
  rintro room read node ⟨form, rfl, rfl, _⟩
  exact form.built

end DocGrammar
