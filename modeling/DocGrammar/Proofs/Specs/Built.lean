import DocGrammar.Proofs.Types.Built
import DocGrammar.Specs.Body

/-! # The trees of specs sections

Every rule of a line builds a node that stands on the tokens of the line and conforms to the schema
of specs documents, or fails with an error that its section can be dropped for.

* **`SpecSection.gives_line`** — what the rule of a line builds.
* **`SpecSection.gives_body`** — the lines of a section fill the node of the section. -/

namespace DocGrammar

open Rule

/-- A rule builds a node of some kinds. -/
abbrev BuildsSpecs (kinds : List NodeKind) (read : List Token) (node : Node) : Prop :=
  Built .specs kinds read [node]

namespace SpecLine

variable {token sign digits : Token} {read more : List Token} {inner left right : Node}
  {kind child : NodeKind} {kinds others : List NodeKind}

/-! ## Shared parts -/

/-- A number with a sign is built on both of them. -/
theorem built_signed (minus : sign.kind = .minus) (number : digits.kind = .numberLit) :
    BuildsSpecs [.number] [sign, digits]
      (.leafOf .number ("-" ++ digits.value) (sign.span.through digits.span)) :=
  .single (.signed rfl minus number .none) (Node.conforms_leafOf rfl rfl _ _) List.mem_cons_self rfl

theorem gives_number : number.Gives (BuildsSpecs [.number]) := by
  refine gives_of_from fun token => givesFrom_isAt (GivesFrom.ite (fun found => ?_) fun _ => ?_)
  · have minus : token.kind = .minus := of_decide_eq_true found
    refine (givesFrom_advance minus (by decide)).bind ?_
    rintro _ _ ⟨rfl, rfl⟩
    refine (gives_expect (by decide) _).bind ?_
    rintro digits _ ⟨rfl, number⟩
    exact gives_pure (built_signed minus number)
  · refine ((gives_expect (by decide) _).bind ?_).from token
    rintro digits _ ⟨rfl, number⟩
    exact gives_pure (built_leaf number rfl rfl rfl)

/-- A node around a single child of one of the kinds that its own kind prescribes. -/
theorem built_around (built : BuildsSpecs [child] read inner) (member : child ∈ kinds)
    (prescribes : kind.contents .specs = [[.one kinds]]) (branches : kind.isLeaf = false)
    (texts : kind.carriesText = false) : BuildsSpecs [kind] read (.branch kind [inner]) := by
  have any : BuildsSpecs kinds read inner :=
    built.mono fun _ same => List.mem_singleton.mp same ▸ member
  exact built.toSound.branch (List.cons_ne_nil _ _)
    (.first prescribes (Slot.fill_one rfl any.admits_single rfl) branches texts.symm)

/-- A node around two children with some tokens between them. -/
theorem built_pair (first : BuildsSpecs kinds read left) (second : BuildsSpecs others more right)
    (prescribes : kind.contents .specs = [[.one kinds, .one others]])
    (branches : kind.isLeaf = false) (texts : kind.carriesText = false) (between : List Token) :
    BuildsSpecs [kind] (read ++ (between ++ more)) (.branch kind [left, right]) :=
  (first.toSound.append (second.toSound.skipAll between)).branch (List.cons_ne_nil _ _)
    (.first prescribes (Slot.fill_one rfl first.admits_single
      (Slot.fill_one rfl second.admits_single rfl)) branches texts.symm)

/-- A rule whose node is wrapped gives the wrapped node. -/
theorem givesFrom_around {rule : Rule Node} (gives : rule.GivesFrom token (BuildsSpecs [child]))
    (member : child ∈ kinds) (prescribes : kind.contents .specs = [[.one kinds]])
    (branches : kind.isLeaf = false) (texts : kind.carriesText = false) :
    (rule >>= fun inner => pure (.branch kind [inner])).GivesFrom token (BuildsSpecs [kind]) := by
  refine gives.bind fun inner read built => gives_pure ?_
  rw [List.append_nil]
  exact built_around built member prescribes branches texts

theorem givesFrom_name (name : token.kind = .identifier) :
    (Rule.leaf .identifier).GivesFrom token (BuildsSpecs [.identifier]) :=
  givesFrom_leaf name rfl rfl rfl

theorem givesFrom_string (text : token.kind = .stringLit) :
    (Rule.leaf .stringLiteral).GivesFrom token (BuildsSpecs [.stringLiteral]) :=
  givesFrom_leaf text rfl rfl rfl

theorem givesFrom_truth (truth : token.kind = .booleanLit) :
    (Rule.leaf .booleanLiteral).GivesFrom token (BuildsSpecs [.booleanLiteral]) :=
  givesFrom_leaf truth rfl rfl rfl

theorem gives_value : value.Gives (BuildsSpecs [.value]) := by
  refine gives_current fun token => ?_
  split
  · next kind => exact givesFrom_around (givesFrom_name kind) (by decide) rfl rfl rfl
  · next kind => exact givesFrom_around (givesFrom_string kind) (by decide) rfl rfl rfl
  · exact givesFrom_around (gives_number.from token) (by decide) rfl rfl rfl
  · exact givesFrom_around (gives_number.from token) (by decide) rfl rfl rfl
  · next kind => exact givesFrom_around (givesFrom_truth kind) (by decide) rfl rfl rfl
  · exact (gives_unexpected_bind _ _ _).from token

theorem gives_propertyAccess : propertyAccess.Gives (BuildsSpecs [.propertyAccess]) := by
  refine (gives_nodes (gives_identifier .specs) (by decide)).bind ?_
  rintro names read ⟨built, nonempty⟩
  refine gives_pure ?_
  rw [List.append_nil]
  exact built.toSound.branch nonempty
    (.first rfl (Slot.fill_several rfl nonempty built.admits) rfl rfl)

/-! ## Calls -/

theorem gives_property : property.Gives (BuildsSpecs [.propertyAssignment]) := by
  refine (gives_identifier .specs).bind fun name read builtName => ?_
  refine (gives_expect (by decide) _).bind ?_
  rintro colon _ ⟨rfl, _⟩
  refine gives_value.bind fun value more built => gives_pure ?_
  rw [List.append_nil]
  exact built_pair builtName built rfl rfl rfl [colon]

theorem givesFrom_object (brace : token.kind = .leftBrace) :
    object.GivesFrom token (BuildsSpecs [.objectLiteral]) := by
  refine (givesFrom_advance brace (by decide)).bind ?_
  rintro _ _ ⟨rfl, rfl⟩
  refine (givesUpTo_nodes gives_comma gives_property).advance (by decide) ?_
  intro properties read stop built closes
  exact gives_pure (built.toSound.between (TokenKind.isSolid_of_eq brace rfl)
    (TokenKind.isSolid_of_eq closes rfl) (.first rfl (Slot.fill_any rfl built.admits) rfl rfl))

theorem gives_argument : argument.Gives (BuildsSpecs [.argument]) := by
  refine gives_current fun token => ?_
  split
  · next kind => exact givesFrom_around (givesFrom_name kind) (by decide) rfl rfl rfl
  · next kind => exact givesFrom_around (givesFrom_string kind) (by decide) rfl rfl rfl
  · exact givesFrom_around (gives_number.from token) (by decide) rfl rfl rfl
  · exact givesFrom_around (gives_number.from token) (by decide) rfl rfl rfl
  · next kind => exact givesFrom_around (givesFrom_object kind) (by decide) rfl rfl rfl
  · exact (gives_unexpected_bind _ _ _).from token

theorem gives_call : call.Gives (BuildsSpecs [.functionCall]) := by
  refine (gives_identifier .specs).bind fun name nameRead builtName => ?_
  refine (gives_expect (by decide) _).bind ?_
  rintro opening _ ⟨rfl, _⟩
  refine (givesUpTo_nodes gives_comma gives_argument).advance (by decide) ?_
  intro arguments read close built closes
  refine gives_pure ?_
  rw [List.append_nil, ← List.append_assoc [opening], ← List.append_assoc nameRead]
  exact (builtName.toSound.append (built.toSound.skipAll [opening])).spanTo rfl
    (TokenKind.isSolid_of_eq closes rfl) (.first rfl (Slot.fill_one rfl builtName.admits_single
      (Slot.fill_any rfl built.admits)) rfl rfl)

/-! ## Lines -/

theorem gives_intent : intent.Gives (BuildsSpecs [.intentDeclaration]) := by
  refine gives_current fun verb => GivesFrom.ite
    (fun _ => (gives_unexpected_bind _ _ _).from verb) fun known => ?_
  have name : verb.kind = .identifier :=
    Decidable.byContradiction fun other => by simp [other] at known
  refine (givesFrom_advance name (by decide)).bind ?_
  rintro _ _ ⟨rfl, rfl⟩
  refine (gives_identifier .specs).bind fun subject subjectRead builtSubject => ?_
  refine (gives_expect (by decide) _).bind ?_
  rintro mark _ ⟨rfl, _⟩
  refine (gives_identifier .specs).bind fun given givenRead builtGiven => ?_
  refine (gives_expect (by decide) _).bind ?_
  rintro mark' _ ⟨rfl, _⟩
  refine (gives_identifier .specs).bind fun result resultRead builtResult => gives_pure ?_
  -- each part has a node of its own, and the marks between them have none
  have first : BuildsSpecs [.actionVerb] [verb] (.leaf .actionVerb verb) :=
    built_leaf name rfl rfl rfl
  have second : BuildsSpecs [.subject] subjectRead (.branch .subject [subject]) :=
    built_around builtSubject List.mem_cons_self rfl rfl rfl
  have third : BuildsSpecs [.parameters] givenRead (.branch .parameters [given]) :=
    built_around builtGiven List.mem_cons_self rfl rfl rfl
  have fourth : BuildsSpecs [.returnType] resultRead (.branch .returnType [result]) :=
    built_around builtResult List.mem_cons_self rfl rfl rfl
  have stands := first.toSound.append (second.toSound.append ((third.toSound.append
    (fourth.toSound.skipAll [mark'])).skipAll [mark]))
  rw [List.append_nil]
  exact stands.branch (List.cons_ne_nil _ _) (.first rfl
    (Slot.fill_one rfl first.admits_single (Slot.fill_one rfl second.admits_single
      (Slot.fill_one rfl third.admits_single (Slot.fill_one rfl fourth.admits_single rfl))))
    rfl rfl)

theorem gives_input : input.Gives (BuildsSpecs [.inputSpec]) := by
  refine (gives_identifier .specs).bind fun name read builtName => ?_
  refine (gives_expect (by decide) _).bind ?_
  rintro colon _ ⟨rfl, _⟩
  refine (TypeExpr.gives_rule .specs).bind fun type more built => gives_pure ?_
  rw [List.append_nil]
  exact built_pair builtName built rfl rfl rfl [colon]

/-- The contents of an output with a detail of some kind. -/
theorem holds_output {name detail : Node} {field : String}
    (builtName : BuildsSpecs [.identifier] read name) (built : BuildsSpecs [child] more detail)
    (prescribes : [(Slot.one [.identifier]).named "name", (Slot.one [child]).named field] ∈
      NodeKind.outputSpec.contents .specs) :
    NodeKind.outputSpec.Holds .specs none [name.withField "name", detail.withField field] :=
  ⟨rfl, rfl, _, prescribes, Slot.fill_one rfl (builtName.admits_named "name")
    (Slot.fill_one rfl (built.admits_named field) rfl)⟩

theorem gives_output : output.Gives (BuildsSpecs [.outputSpec]) := by
  refine gives_current fun mark => givesFrom_peek fun behind => GivesFrom.ite
    (fun _ => (gives_unexpected_bind _ _ _).from mark) fun known => ?_
  have word : mark.kind = .identifier :=
    Decidable.byContradiction fun other => by simp [other] at known
  have solid := TokenKind.isSolid_of_eq word rfl
  refine (givesFrom_advance word (by decide)).bind ?_
  rintro _ _ ⟨rfl, rfl⟩
  refine gives_advance.bind fun _ before _ => ?_
  refine (gives_identifier .specs).bind fun name nameRead builtName => ?_
  -- an output holds a type or errors; both stand behind the name under a field name of their own
  have whole : ∀ {detail : Node} {kind : NodeKind} {field : String} (between read : List Token),
      BuildsSpecs [kind] read detail →
      [(Slot.one [.identifier]).named "name", (Slot.one [kind]).named field] ∈
        NodeKind.outputSpec.contents .specs →
      BuildsSpecs [.outputSpec] (mark :: (before ++ (nameRead ++ (between ++ read))))
        (.spanning .outputSpec [name.withField "name", detail.withField field]
          ((detail.withField field).spanFrom mark.span)) := by
    intro detail kind field between read built prescribes
    have stands := ((builtName.toSound.withField "name").append
      ((built.toSound.withField field).skipAll between)).skipAll before
    exact stands.spanFrom rfl solid (holds_output builtName built prescribes)
  split
  · refine (gives_expect (by decide) _).bind ?_
    rintro colon _ ⟨rfl, _⟩
    refine (TypeExpr.gives_rule .specs).bind fun type read built => gives_pure_bind (gives_pure ?_)
    rw [List.append_nil]
    exact whole [colon] read built (.head _)
  · refine (gives_expect (by decide) _).bind ?_
    rintro sign _ ⟨rfl, _⟩
    refine (gives_nodes (gives_identifier .specs) (by decide)).bind ?_
    rintro names read ⟨built, nonempty⟩
    refine gives_pure_bind (gives_pure ?_)
    have errors : BuildsSpecs [.errorTypes] read (.branch .errorTypes names) :=
      built.toSound.branch nonempty
        (.first rfl (Slot.fill_several rfl nonempty built.admits) rfl rfl)
    rw [List.append_nil]
    exact whole [sign] read errors (.tail _ (.head _))

theorem gives_result : result.Gives (BuildsSpecs [.expectedResult]) := by
  refine gives_current fun token => givesFrom_peek fun behind => GivesFrom.ite (fun known => ?_)
    fun _ => ?_
  · have word : token.kind = .identifier :=
      Decidable.byContradiction fun other => by simp [other] at known
    refine (givesFrom_advance word (by decide)).bind ?_
    rintro _ _ ⟨rfl, rfl⟩
    -- an error is two words, of which the node holds the second
    refine gives_advance.bind fun _ before _ => ?_
    refine (gives_identifier .specs).bind fun name read built => gives_pure ?_
    have error : BuildsSpecs [.errorResult] (token :: (before ++ read))
        (.spanning .errorResult [name] (name.spanFrom token.span)) :=
      (built.toSound.skipAll before).spanFrom rfl (TokenKind.isSolid_of_eq word rfl)
        (.first rfl (Slot.fill_one rfl built.admits_single rfl) rfl rfl)
    rw [List.append_nil]
    exact built_around error (by decide) rfl rfl rfl
  · split
    · next kind => exact givesFrom_around (givesFrom_string kind) (by decide) rfl rfl rfl
    · exact givesFrom_around (gives_number.from token) (by decide) rfl rfl rfl
    · exact givesFrom_around (gives_number.from token) (by decide) rfl rfl rfl
    · next kind => exact givesFrom_around (givesFrom_truth kind) (by decide) rfl rfl rfl
    · next kind => exact givesFrom_around (givesFrom_name kind) (by decide) rfl rfl rfl
    · exact (gives_unexpected_bind _ _ _).from token

theorem gives_exampleCall : exampleCall.Gives (BuildsSpecs [.exampleSpec]) := by
  refine gives_call.bind fun made read builtCall => ?_
  refine (gives_expect (by decide) _).bind ?_
  rintro arrow _ ⟨rfl, _⟩
  refine gives_result.bind fun result more built => gives_pure ?_
  rw [List.append_nil]
  exact built_pair builtCall built rfl rfl rfl [arrow]

theorem gives_range : range.Gives (BuildsSpecs [.range]) := by
  refine gives_current fun token => GivesFrom.ite (fun bracket => ?_) fun _ => ?_
  · -- two values between brackets
    refine (givesFrom_advance bracket (by decide)).bind ?_
    rintro _ _ ⟨rfl, rfl⟩
    refine gives_value.bind fun low lowRead builtLow => ?_
    refine (gives_expect (by decide) _).bind ?_
    rintro comma _ ⟨rfl, _⟩
    refine gives_value.bind fun high highRead builtHigh => ?_
    refine (gives_expect (by decide) _).bind ?_
    rintro close _ ⟨rfl, closes⟩
    refine gives_pure ?_
    have holds : NodeKind.range.Holds .specs none [low, high] :=
      ⟨rfl, rfl, _, .tail _ (.head _), Slot.fill_one rfl builtLow.admits_single
        (Slot.fill_one rfl builtHigh.admits_single rfl)⟩
    have stands := builtLow.toSound.append (builtHigh.toSound.skipAll [comma])
    rw [List.append_nil, ← List.append_assoc [comma], ← List.append_assoc lowRead]
    exact stands.between (TokenKind.isSolid_of_eq bracket rfl)
      (TokenKind.isSolid_of_eq closes rfl) holds
  · have numbers : (number >>= fun low => expect .dotDot "'..'" >>= fun _ => number >>= fun high =>
        pure (Node.branch .range [low, high])).Gives (BuildsSpecs [.range]) := by
      refine gives_number.bind fun low lowRead builtLow => ?_
      refine (gives_expect (by decide) _).bind ?_
      rintro dots _ ⟨rfl, _⟩
      refine gives_number.bind fun high highRead builtHigh => gives_pure ?_
      have holds : NodeKind.range.Holds .specs none [low, high] :=
        .first rfl (Slot.fill_one rfl builtLow.admits_single
          (Slot.fill_one rfl builtHigh.admits_single rfl)) rfl rfl
      rw [List.append_nil]
      exact (builtLow.toSound.append (builtHigh.toSound.skipAll [dots])).branch
        (List.cons_ne_nil _ _) holds
    exact GivesFrom.ite (fun _ => (gives_unexpected_bind _ _ _).from token)
      fun _ => numbers.from token

theorem gives_constraint : constraint.Gives (BuildsSpecs [.constraintSpec]) := by
  refine gives_propertyAccess.bind fun target targetRead builtTarget => ?_
  -- each kind of constraint is wrapped in the same way
  have wrapped : ∀ {kind : NodeKind} {inner : Node} {read : List Token},
      BuildsSpecs [kind] (targetRead ++ read) inner →
      kind ∈ [NodeKind.comparison, .rangeConstraint, .formatConstraint] →
      (pure inner >>= fun inner => pure (.branch .constraintSpec [inner]) : Rule Node).Gives
        fun more node => BuildsSpecs [.constraintSpec] (targetRead ++ (read ++ more)) node := by
    intro kind inner read built member
    refine gives_pure_bind (gives_pure ?_)
    rw [List.append_nil]
    exact built_around built member rfl rfl rfl
  refine gives_current fun token => GivesFrom.ite (fun compares => ?_) fun _ =>
    GivesFrom.ite (fun word => ?_) fun _ => GivesFrom.ite (fun word => ?_) fun _ =>
      (gives_unexpected_bind _ _ _).from token
  · have operators : (Rule.leaf .comparisonOperator).GivesFrom token
        (BuildsSpecs [.comparisonOperator]) := givesFrom_leaf rfl compares rfl rfl
    refine operators.bind fun operator read builtOperator => ?_
    refine gives_value.bind fun value more built => ?_
    have holds : NodeKind.comparison.Holds .specs none [target, operator, value] :=
      .first rfl (Slot.fill_one rfl builtTarget.admits_single (Slot.fill_one rfl
        builtOperator.admits_single (Slot.fill_one rfl built.admits_single rfl))) rfl rfl
    have triple : BuildsSpecs [.comparison] (targetRead ++ (read ++ more))
        (.branch .comparison [target, operator, value]) :=
      (builtTarget.toSound.append (builtOperator.toSound.append built.toSound)).branch
        (List.cons_ne_nil _ _) holds
    simpa only [List.append_assoc] using wrapped triple (by decide)
  · refine (gives_advance.bind fun _ before _ => ?_).from token
    refine gives_range.bind fun range more built => ?_
    have pair : BuildsSpecs [.rangeConstraint] (targetRead ++ (before ++ more))
        (.branch .rangeConstraint [target, range]) :=
      built_pair builtTarget built rfl rfl rfl before
    simpa only [List.append_assoc] using wrapped pair (by decide)
  · refine (gives_advance.bind fun _ before _ => ?_).from token
    refine (gives_expect (by decide) _).bind ?_
    rintro pattern _ ⟨rfl, known⟩
    have built : BuildsSpecs [.pattern] [pattern] (.leaf .pattern pattern) :=
      built_leaf known rfl rfl rfl
    have pair : BuildsSpecs [.formatConstraint] (targetRead ++ (before ++ [pattern]))
        (.branch .formatConstraint [target, .leaf .pattern pattern]) :=
      built_pair builtTarget built rfl rfl rfl before
    simpa only [List.append_assoc] using wrapped pair (by decide)

/-- What may stand on a side of an invariant. -/
abbrev sides : List NodeKind := [.functionCall, .propertyAccess, .booleanLiteral]

theorem gives_side : side.Gives (BuildsSpecs sides) := by
  refine gives_current fun token => ?_
  split
  · next kind => exact (givesFrom_truth kind).widen (by decide)
  · refine givesFrom_peek fun behind => GivesFrom.ite (fun _ => ?_) fun _ => ?_
    · exact (gives_call.from token).widen (by decide)
    · exact (gives_propertyAccess.from token).widen (by decide)
  · exact (gives_unexpected _ _).from token

theorem gives_invariant : invariant.Gives (BuildsSpecs [.invariantSpec]) := by
  refine gives_side.bind fun left read builtLeft => ?_
  refine (gives_expect (by decide) _).bind ?_
  rintro mark _ ⟨rfl, _⟩
  refine gives_side.bind fun right more builtRight => gives_pure ?_
  rw [List.append_nil]
  exact built_pair builtLeft builtRight rfl rfl rfl [mark]

end SpecLine

/-! ## Bodies -/

namespace SpecSection

/-- The kind of the nodes of lines of a section. -/
def lineKind : SpecSection → NodeKind
  | intent => .intentDeclaration
  | inputs => .inputSpec
  | outputs => .outputSpec
  | examples => .exampleSpec
  | constraints => .constraintSpec
  | invariants => .invariantSpec

theorem gives_line (part : SpecSection) : part.line.Gives (BuildsSpecs [part.lineKind]) := by
  cases part with
  | intent => exact SpecLine.gives_intent
  | inputs => exact SpecLine.gives_input
  | outputs => exact SpecLine.gives_output
  | examples => exact SpecLine.gives_exampleCall
  | constraints => exact SpecLine.gives_constraint
  | invariants => exact SpecLine.gives_invariant

theorem gives_endOfLine : endOfLine.Gives fun _ _ => True := by
  refine gives_current fun token => GivesFrom.ite (fun _ => ?_) fun _ => ?_
  · exact (gives_advance.bind fun _ _ _ => gives_pure trivial).from token
  · exact GivesFrom.ite (fun _ => (gives_unexpected _ _).from token)
      fun _ => (gives_pure trivial).from token

theorem gives_lines {spec : Rule Node} {kind : NodeKind} (gives : spec.Gives (BuildsSpecs [kind])) :
    (lines spec).Gives (Built .specs [kind]) := by
  refine gives_skipNewlines.bind fun _ before _ => ?_
  have rounds : ∀ found read, Built .specs [kind] read found →
      (lineRound spec found).Gives
        (Round.Keeps (Built .specs [kind]) (Built .specs [kind]) read) := by
    intro found read built
    refine gives_of_from fun token => givesFrom_isAt (GivesFrom.ite (fun _ => ?_) fun _ => ?_)
    · exact (gives_done built).from token
    · refine (gives.bind fun next more builtNext => ?_).from token
      refine gives_endOfLine.bind fun _ ending _ => gives_skipNewlines.bind fun _ feeds _ => ?_
      refine gives_pure ⟨by simp [builtNext.ne_nil], ?_⟩
      rw [← List.append_assoc]
      exact (built.append builtNext).extend _
  have whole := gives_loop rounds (.none : Built .specs [kind] [] [])
  exact whole.mono fun read nodes built => built.skipAll before

theorem gives_declaration : declaration.Gives (BuildsSpecs [.intentDeclaration]) := by
  have empty : Cause.emptyIntent.Recoverable := rfl
  have second : Cause.secondDeclaration.Recoverable := rfl
  refine gives_skipNewlines.bind fun _ before _ => gives_current fun first => GivesFrom.ite
    (fun _ => (gives_refuse_bind empty _ _).from first) fun _ => ?_
  refine (SpecLine.gives_intent.bind fun found read built => ?_).from first
  refine gives_endOfLine.bind fun _ ending _ => gives_skipNewlines.bind fun _ feeds _ => ?_
  refine gives_current fun rest => GivesFrom.ite (fun _ => (gives_refuse_bind second _ _).from rest)
    fun _ => (gives_pure ?_).from rest
  exact (built.extend _).skipAll before

/-- The node of a body spans its lines, and these fill it. -/
structure IsBody (part : SpecSection) (read : List Token) (node : Node) : Prop where
  /-- The node is of the kind of the section and spans its children. -/
  whole : node = .branch part.nodeKind node.children
  /-- The children are sound. -/
  sound : Sound .specs read node.children
  /-- The section may hold the children. -/
  holds : part.nodeKind.Holds .specs none node.children

/-- A section without a limit on its lines is filled by them. -/
theorem isBody_lines {part : SpecSection} {read : List Token} {nodes : List Node}
    (built : Built .specs [part.lineKind] read nodes) (several : part ≠ .intent) :
    part.IsBody read (.branch part.nodeKind nodes) := by
  refine ⟨rfl, built.toSound, ?_⟩
  have filled : Slot.fill [.any [part.lineKind]] nodes = true := Slot.fill_any rfl built.admits
  cases part with
  | intent => exact absurd rfl several
  | _ => exact .first rfl filled rfl rfl

theorem gives_body (part : SpecSection) : part.body.Gives part.IsBody := by
  have others : part ≠ .intent →
      (lines part.line >>= fun nodes => pure (.branch part.nodeKind nodes) : Rule Node).Gives
        part.IsBody := by
    intro several
    refine (gives_lines (gives_line part)).bind fun nodes read built => gives_pure ?_
    rw [List.append_nil]
    exact isBody_lines built several
  cases part with
  | intent =>
    refine gives_declaration.bind fun declared read built => gives_pure ?_
    rw [List.append_nil]
    exact ⟨rfl, built.toSound, .first rfl (Slot.fill_one rfl built.admits_single rfl) rfl rfl⟩
  | _ => exact others (by decide)

end SpecSection

end DocGrammar
