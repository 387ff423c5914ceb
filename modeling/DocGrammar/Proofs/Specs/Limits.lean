import DocGrammar.Proofs.Documents.Limits
import DocGrammar.Proofs.Specs.Sections
import DocGrammar.Proofs.Types.Limits

/-! # Specs under two limits

Only the types of inputs and outputs are nested in a line of a specs section. Under a greater limit
a section is read as before, unless a type was nested too deep. Apart from types, a line has at most
seven levels of nodes.

* **`SpecSection.steady_line`** — the lines of a section.
* **`SpecSection.steady_body`** — its body.
* **`Specs.Blames`** — where a section of a specs document is at fault.
* **`Specs.tracks_sectionNodes`** — a section as it is walked. -/

namespace DocGrammar

open Rule

variable {limits : TokenLimits}

namespace SpecLine

/-! ## Shared parts -/

theorem steady_number (bound : Nat) : Steady limits number (Node.Within (bound + 1)) := by
  refine (tracks_isAt _).bind fun negative _ => .ite (fun _ => ?_) fun _ => ?_
  · exact tracks_advance.bind fun sign _ => (tracks_expect _ _).bind fun digits _ =>
      tracks_pure (Node.within_leafOf _ _ _)
  · exact (tracks_expect _ _).bind fun digits _ => tracks_pure (Node.within_leaf _ _)

theorem steady_value (bound : Nat) : Steady limits value (Node.Within (bound + 2)) := by
  refine tracks_current.bind fun token member => ?_
  have inner : ∀ node : Node, node.Within (bound + 1) →
      Steady limits (pure (Node.branch .value [node])) (Node.Within (bound + 2)) :=
    fun _ within => tracks_pure (Node.within_branch_singleton within)
  split
  · exact (steady_leaf bound _).bind inner
  · exact (steady_leaf bound _).bind inner
  · exact (steady_number bound).bind inner
  · exact (steady_number bound).bind inner
  · exact (steady_leaf bound _).bind inner
  · exact tracks_refuse_bind member _

theorem steady_propertyAccess (bound : Nat) :
    Steady limits propertyAccess (Node.Within (bound + 2)) :=
  (tracks_chain (steady_identifier bound)).bind fun _ within =>
    tracks_pure (Node.within_of_children within)

/-! ## Calls -/

theorem steady_property : Steady limits property (Node.Within 3) := by
  refine (steady_identifier 1).bind fun name named => (tracks_expect _ _).bind fun _ _ => ?_
  exact (steady_value 0).bind fun value within => tracks_pure (Node.within_branch_pair named within)

theorem steady_object : Steady limits object (Node.Within 4) := by
  refine tracks_advance.bind fun start _ => ?_
  refine (tracks_delimited tracks_comma steady_property).bind fun properties within => ?_
  exact tracks_advance.bind fun stop _ => tracks_pure (Node.within_of_children within)

theorem steady_argument : Steady limits argument (Node.Within 5) := by
  refine tracks_current.bind fun token member => ?_
  have inner : ∀ node : Node, node.Within 4 →
      Steady limits (pure (Node.branch .argument [node])) (Node.Within 5) :=
    fun _ within => tracks_pure (Node.within_branch_singleton within)
  split
  · exact (steady_leaf 3 _).bind inner
  · exact (steady_leaf 3 _).bind inner
  · exact (steady_number 3).bind inner
  · exact (steady_number 3).bind inner
  · exact steady_object.bind inner
  · exact tracks_refuse_bind member _

theorem steady_call : Steady limits call (Node.Within 6) := by
  refine (steady_identifier 4).bind fun name named => (tracks_expect _ _).bind fun _ _ => ?_
  refine (tracks_delimited tracks_comma steady_argument).bind fun arguments within => ?_
  refine tracks_advance.bind fun close _ => tracks_pure (Node.within_of_children ?_)
  exact List.forall_mem_cons.mpr ⟨named, within⟩

/-! ## Lines -/

theorem steady_intent : Steady limits intent (Node.Within 3) := by
  refine tracks_current.bind fun verb member => .ite (fun _ => tracks_refuse_bind member _)
    fun _ => tracks_advance.bind fun _ _ => ?_
  refine (steady_identifier 0).bind fun subject one => (tracks_expect _ _).bind fun _ _ => ?_
  refine (steady_identifier 0).bind fun given two => (tracks_expect _ _).bind fun _ _ => ?_
  refine (steady_identifier 0).bind fun result three => tracks_pure (Node.within_of_children ?_)
  simpa [Node.branch] using ⟨Node.within_leaf _ _, Node.within_branch_singleton one,
    Node.within_branch_singleton two, Node.within_branch_singleton three⟩

theorem steady_input : Steady limits input (Node.Within (4 * limits.low + 2)) := by
  refine (steady_identifier (4 * limits.low)).bind fun name named => ?_
  refine (tracks_expect _ _).bind fun _ _ => TypeExpr.steady_rule.bind fun type within => ?_
  exact tracks_pure (Node.within_branch_pair named within)

theorem steady_output : Steady limits output (Node.Within (4 * limits.low + 3)) := by
  refine tracks_current.bind fun mark member => (tracks_peek 1).bind fun behind _ => ?_
  refine .ite (fun _ => tracks_refuse_bind member _) fun _ => ?_
  refine tracks_advance.bind fun _ _ => tracks_advance.bind fun _ _ => ?_
  refine (steady_identifier (4 * limits.low + 1)).bind fun name named => ?_
  have whole : ∀ detail : Node, detail.Within (4 * limits.low + 2) →
      Steady limits (pure (Node.spanning .outputSpec [name.withField "name", detail]
        (detail.spanFrom mark.span))) (Node.Within (4 * limits.low + 3)) := by
    intro detail within
    refine tracks_pure (Node.within_of_children ?_)
    exact List.forall_mem_cons.mpr ⟨(Node.within_withField _).mpr named,
      List.forall_mem_singleton.mpr within⟩
  refine .ite (fun _ => ?_) fun _ => ?_
  · refine (tracks_expect _ _).bind fun _ _ => TypeExpr.steady_rule.bind fun type within => ?_
    exact whole _ ((Node.within_withField _).mpr (within.mono (Nat.le_add_right _ 1)))
  · refine (tracks_expect _ _).bind fun _ _ => ?_
    refine (tracks_chain (steady_identifier (4 * limits.low))).bind fun names within => ?_
    exact whole _ ((Node.within_withField _).mpr (Node.within_of_children within))

theorem steady_result : Steady limits result (Node.Within 3) := by
  refine tracks_current.bind fun token member => (tracks_peek 1).bind fun behind _ =>
    .ite (fun _ => ?_) fun _ => ?_
  · refine tracks_advance.bind fun _ _ => tracks_advance.bind fun _ _ => ?_
    refine (steady_identifier 0).bind fun name named =>
      tracks_pure (Node.within_branch_singleton ?_)
    exact Node.within_of_children (List.forall_mem_singleton.mpr named)
  have inner : ∀ node : Node, node.Within 2 →
      Steady limits (pure (Node.branch .expectedResult [node])) (Node.Within 3) :=
    fun _ within => tracks_pure (Node.within_branch_singleton within)
  split
  · exact (steady_leaf 1 _).bind inner
  · exact (steady_number 1).bind inner
  · exact (steady_number 1).bind inner
  · exact (steady_leaf 1 _).bind inner
  · exact (steady_leaf 1 _).bind inner
  · exact tracks_refuse_bind member _

theorem steady_exampleCall : Steady limits exampleCall (Node.Within 7) := by
  refine steady_call.bind fun made called => (tracks_expect _ _).bind fun _ _ => ?_
  exact steady_result.bind fun result within => 
      tracks_pure (Node.within_branch_pair called (within.mono (by decide)))

theorem steady_range : Steady limits range (Node.Within 3) := by
  refine tracks_current.bind fun token member => .ite (fun _ => ?_) fun _ => ?_
  · refine tracks_advance.bind fun _ _ => (steady_value 0).bind fun low one => ?_
    refine (tracks_expect _ _).bind fun _ _ => (steady_value 0).bind fun high two => ?_
    refine (tracks_expect _ _).bind fun close _ => tracks_pure (Node.within_of_children ?_)
    exact List.forall_mem_cons.mpr ⟨one, List.forall_mem_singleton.mpr two⟩
  · refine .ite (fun _ => tracks_refuse_bind member _) fun _ => ?_
    refine (steady_number 1).bind fun low one => (tracks_expect _ _).bind fun _ _ => ?_
    exact (steady_number 1).bind fun high two => tracks_pure (Node.within_branch_pair one two)

theorem steady_constraint : Steady limits constraint (Node.Within 5) := by
  refine (steady_propertyAccess 1).bind fun target named => ?_
  refine tracks_current.bind fun token member => ?_
  have whole : ∀ inner : Node, inner.Within 4 →
      Steady limits (pure (Node.branch .constraintSpec [inner])) (Node.Within 5) :=
    fun _ within => tracks_pure (Node.within_branch_singleton within)
  refine .ite (fun _ => ?_) fun _ => .ite (fun _ => ?_) fun _ => .ite (fun _ => ?_) fun _ =>
    tracks_refuse_bind member _
  · refine (steady_leaf 2 _).bind fun operator compares => ?_
    refine (steady_value 1).bind fun value within => ?_
    refine whole _ (Node.within_of_children ?_)
    exact List.forall_mem_cons.mpr
      ⟨named, List.forall_mem_cons.mpr ⟨compares, List.forall_mem_singleton.mpr within⟩⟩
  · exact tracks_advance.bind fun _ _ => steady_range.bind fun range within =>
      whole _ (Node.within_branch_pair named within)
  · exact tracks_advance.bind fun _ _ => (tracks_expect _ _).bind fun pattern _ =>
      whole _ (Node.within_branch_pair named (Node.within_leaf _ _))

theorem steady_side : Steady limits side (Node.Within 6) := by
  refine tracks_current.bind fun token member => ?_
  split
  · exact steady_leaf 5 _
  · exact (tracks_peek 1).bind fun behind _ =>
      .ite (fun _ => steady_call) fun _ => steady_propertyAccess 4
  · exact tracks_refuse member _

theorem steady_invariant : Steady limits invariant (Node.Within 7) := by
  refine steady_side.bind fun left one => (tracks_expect _ _).bind fun _ _ => ?_
  exact steady_side.bind fun right two => tracks_pure (Node.within_branch_pair one two)

end SpecLine

/-! ## Bodies -/

namespace SpecSection

/-- The lines of every section are bounded alike. -/
theorem steady_line (part : SpecSection) :
    Steady limits part.line (Node.Within (4 * limits.low + 7)) := by
  cases part with
  | intent => exact SpecLine.steady_intent.mono fun _ within => within.mono (by omega)
  | inputs => exact SpecLine.steady_input.mono fun _ within => within.mono (by omega)
  | outputs => exact SpecLine.steady_output.mono fun _ within => within.mono (by omega)
  | examples => exact SpecLine.steady_exampleCall.mono fun _ within => within.mono (by omega)
  | constraints => exact SpecLine.steady_constraint.mono fun _ within => within.mono (by omega)
  | invariants => exact SpecLine.steady_invariant.mono fun _ within => within.mono (by omega)

theorem steady_endOfLine : Steady limits endOfLine fun _ => True := by
  refine tracks_current.bind fun token member => .ite (fun _ => ?_) fun _ => ?_
  · exact tracks_advance.bind fun _ _ => tracks_pure trivial
  · exact .ite (fun _ => tracks_refuse member _) fun _ => tracks_pure trivial

variable {spec : Rule Node} {good : Node → Prop}

theorem steady_lineRound (each : Steady limits spec good) {found : List Node}
    (others : All good found) :
    Steady limits (lineRound spec found) (Round.Meets (All good) (All good)) := by
  refine (tracks_isAt _).bind fun ended _ => .ite (fun _ => tracks_pure others) fun _ => ?_
  refine each.bind fun next holds => steady_endOfLine.bind fun _ _ => ?_
  exact tracks_skipNewlines.bind fun _ _ => tracks_pure (others.concat holds)

theorem steady_lines (each : Steady limits spec good) : Steady limits (lines spec) (All good) :=
  tracks_skipNewlines.bind fun _ _ =>
    tracks_loop (fun _ others => steady_lineRound each others) All.nil

theorem steady_declaration : Steady limits declaration (Node.Within 3) := by
  refine tracks_skipNewlines.bind fun _ _ => tracks_current.bind fun first member => ?_
  refine .ite (fun _ => tracks_refuse_bind member _) fun _ => ?_
  refine SpecLine.steady_intent.bind fun found within => steady_endOfLine.bind fun _ _ => ?_
  refine tracks_skipNewlines.bind fun _ _ => tracks_current.bind fun rest member => ?_
  exact .ite (fun _ => tracks_refuse_bind member _) fun _ => tracks_pure within

/-- The body of a section is read alike under both limits. -/
theorem steady_body (part : SpecSection) :
    Steady limits part.body fun node => All (Node.Within (4 * limits.low + 7)) node.children := by
  have all : ∀ {kind : NodeKind} (part : SpecSection),
      Steady limits (do return Node.branch kind (← lines part.line))
        fun node => All (Node.Within (4 * limits.low + 7)) node.children :=
    fun part => (steady_lines part.steady_line).bind fun found within => tracks_pure within
  cases part with
  | intent =>
    exact steady_declaration.bind fun found within =>
      tracks_pure (List.forall_mem_singleton.mpr (within.mono (by omega)))
  | inputs => exact all inputs
  | outputs => exact all outputs
  | examples => exact all examples
  | constraints => exact all constraints
  | invariants => exact all invariants

end SpecSection

/-! ## Sections -/

namespace Specs

/-- What a section of a specs document may be blamed for. -/
inductive Blames (file : String) (part : Section) : Diagnostic → Prop
  /-- It ends inside a fenced block. -/
  | fence {diagnostic : Diagnostic} (failure : part.failure = some diagnostic) :
    Blames file part diagnostic
  /-- One of its items. -/
  | item {item : Item} {cause : Cause} (member : item ∈ part.items) :
    Blames file part ⟨cause, item.span⟩
  /-- Its heading. -/
  | heading {heading : Heading} {cause : Cause} (found : part.heading = some heading) :
    Blames file part ⟨cause, heading.span⟩
  /-- Its title. -/
  | title {heading : Heading} {cause : Cause} (found : part.heading = some heading) :
    Blames file part ⟨cause, heading.title.span⟩
  /-- Something in its body that makes no tokens. -/
  | unread {heading : Heading} {diagnostic : Diagnostic} (found : part.heading = some heading)
    (refused : bodyCode file heading part.items = .error diagnostic) :
    Blames file part diagnostic
  /-- A token of its body. -/
  | token {heading : Heading} {code : List Token} {token : Token} {cause : Cause}
    (found : part.heading = some heading)
    (read : bodyCode file heading part.items = .ok code) (member : token ∈ WalkM.seen code) :
    Blames file part ⟨cause, token.span⟩

variable {limits : Limits} {file : String} {part : Section} {heading : Heading}

/-- The nodes of a section are bounded by the lower limit. -/
abbrev IsLow (limits : Limits) (node : Node) : Prop := node.Within (4 * limits.low + 8)

theorem tracks_preamble {good : Node → Prop} :
    (preamble part.items).Tracks limits file (All good) (Blames file part) := by
  unfold preamble
  split
  · next item found => exact WalkM.tracks_refuse (.item (List.mem_of_find?_eq_some found))
  · exact WalkM.tracks_pure All.nil

theorem tracks_feature (found : part.heading = some heading) (tail : List Char) :
    (feature heading part.items tail).Tracks limits file (IsLow limits) (Blames file part) := by
  unfold feature
  dsimp only
  refine .ite (fun _ => WalkM.tracks_refuse_bind (.title found)) fun _ => ?_
  split
  · next item stands => exact WalkM.tracks_refuse (.item (List.mem_of_find?_eq_some stands))
  · refine WalkM.tracks_pure (Node.within_of_children ?_)
    exact List.forall_mem_singleton.mpr (Node.within_leafOf _ _ _)

theorem tracks_bodySection (kind : SpecSection) (found : part.heading = some heading) :
    (bodySection kind heading part.items).Tracks limits file (IsLow limits)
      (Blames file part) := by
  refine WalkM.tracks_file_bind (WalkM.tracks_ofExcept_bind (fun _ => .unread found) ?_)
  intro code read
  have body : (WalkM.runRule kind.body code : SpecsM Node).Tracks limits file
      (fun node => All (Node.Within (4 * limits.low + 7)) node.children) (Blames file part) := by
    refine (WalkM.tracks_runRule kind.steady_body kind.takes_body (endsInput_bodyCode read)).mono
      (fun _ within => within) ?_
    rintro ⟨cause, span⟩ ⟨token, member, rfl⟩
    exact .token found read member
  exact body.bind fun node within => WalkM.tracks_pure (Node.within_of_children within)

/-- What holds of every feature and of every section of level two holds of what is read below a
heading. -/
theorem tracks_headedSection {good : Node → Prop} (found : part.heading = some heading)
    (features : ∀ tail,
      (feature heading part.items tail).Tracks limits file good (Blames file part))
    (bodies : ∀ kind,
      (bodySection kind heading part.items).Tracks limits file good (Blames file part)) :
    (headedSection heading part.items).Tracks limits file (All good) (Blames file part) := by
  have marks : markOpened.Tracks limits file (fun _ => True) (Blames file part) :=
    WalkM.tracks_modify fun _ => true
  have asks : wasOpened.Tracks limits file (fun _ => True) (Blames file part) :=
    fun _ _ => ⟨rfl, trivial, rfl⟩
  have alone : ∀ node : Node, good node →
      (pure [node] : SpecsM (List Node)).Tracks limits file (All good)
        (Blames file part) := fun _ holds => WalkM.tracks_pure (List.forall_mem_singleton.mpr holds)
  -- the refusals blame the heading or its title, and what is left is a feature or a body
  unfold headedSection
  dsimp only
  split
  · next tail _ =>
    refine .ite (fun _ => WalkM.tracks_refuse_bind (.heading found)) fun _ => ?_
    refine asks.bind fun opened _ => .ite (fun _ => WalkM.tracks_refuse_bind (.heading found))
      fun _ => ?_
    exact marks.bind fun _ _ => (features tail).bind alone
  · split
    · exact WalkM.tracks_refuse (.title found)
    · next kind _ =>
      refine .ite (fun _ => WalkM.tracks_refuse_bind (.heading found)) fun _ => ?_
      exact marks.bind fun _ _ => (bodies kind).bind alone

/-- A section is read alike under both limits if features and sections of level two are. -/
theorem tracks_section {good : Node → Prop}
    (features : ∀ heading tail, part.heading = some heading →
      (feature heading part.items tail).Tracks limits file good (Blames file part))
    (bodies : ∀ heading kind, part.heading = some heading →
      (bodySection kind heading part.items).Tracks limits file good (Blames file part)) :
    (sectionNodes sectionRule part).Tracks limits file (All good) (Blames file part) := by
  unfold sectionNodes
  split
  · next diagnostic failure => exact WalkM.tracks_throw (.fence failure)
  · unfold sectionRule
    split
    · exact tracks_preamble
    · next heading found =>
      exact tracks_headedSection found (fun tail => features heading tail found) fun kind =>
        bodies heading kind found

/-- A section is read alike under both limits. -/
theorem tracks_sectionNodes (part : Section) :
    (sectionNodes sectionRule part).Tracks limits file (All (IsLow limits))
      (Blames file part) :=
  tracks_section (fun _ tail found => tracks_feature found tail) fun _ kind found =>
    tracks_bodySection kind found

end Specs

end DocGrammar
