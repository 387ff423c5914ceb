import DocGrammar.Proofs.Documents.Limits
import DocGrammar.Proofs.Pseudo.Sections
import DocGrammar.Proofs.Types.Limits

/-! # Statements under two limits

Under a greater limit expressions and statements are read as before, unless one was nested too deep.
Infix operators, property accesses and method calls surround the operand that was read before them.
Every other form is nested, so that a level of nesting adds at most two levels of nodes to an
expression and three to a block.

* **`Expression.tracks_upTo`**, **`Expression.steady_rule`** — expressions.
* **`Statement.tracks_compound`**, **`Statement.steady_all`** — statements.
* **`Pseudo.Blames`** — where a section of a pseudo-kernel document is at fault.
* **`Pseudo.tracks_sectionNodes`** — a section as it is walked. -/

namespace DocGrammar

open Rule

variable {limits : TokenLimits} {bound : Nat}

namespace Expression

/-- Whether an expression is within a bound. A name or a scoped name is within one of its own, since
calling it or opening its scope does not surround it. -/
structure Fits (bound : Nat) (node : Node) : Prop where
  /-- It is within the bound. -/
  within : node.Within bound
  /-- A name is a leaf. -/
  name : node.kind = .identifier → node.Within 1
  /-- A scoped name holds leaves. -/
  path : node.kind = .scopedIdentifier → node.Within 2

variable {node left part : Node}

theorem Fits.mono {more : Nat} (fits : Fits bound node) (le : bound ≤ more) : Fits more node :=
  ⟨fits.within.mono le, fits.name, fits.path⟩

/-- A node that is no name has to be within the bound only. -/
theorem fits_of_within (within : node.Within bound) (other : isName node = false) :
    Fits bound node := by
  unfold isName at other
  refine ⟨within, fun name => ?_, fun path => ?_⟩
  · simp [name] at other
  · simp [path] at other

theorem Fits.of_isName (fits : Fits bound node) (named : isName node = true) : node.Within 2 := by
  unfold isName at named
  by_cases name : node.kind = .identifier
  · exact (fits.name name).mono (by omega)
  · exact fits.path (by simpa [name] using named)

/-! ## Names -/

/-- Where a property access grows by a name it is no higher, and any other node is surrounded. -/
theorem fits_extend_propertyAccess (receiver : Fits (bound + 3) left)
    (name : part.Within (bound + 2)) :
    Fits (bound + 3) (extend .propertyAccess left part) := by
  unfold extend
  by_cases grows : left.kind = .propertyAccess
  · rw [if_pos grows]
    exact fits_of_within (Node.within_concat grows receiver.within name) rfl
  · rw [if_neg grows]
    refine fits_of_within (Node.within_of_surrounds rfl rfl receiver.within ?_) rfl
    exact List.forall_mem_singleton.mpr name

/-- A scoped name stays flat. -/
theorem within_extend_scopedIdentifier (outer : Fits bound left) (named : isName left = true)
    (name : part.Within 1) : (extend .scopedIdentifier left part).Within 2 := by
  unfold extend
  by_cases grows : left.kind = .scopedIdentifier
  · rw [if_pos grows]
    exact Node.within_concat grows (outer.path grows) name
  · rw [if_neg grows]
    refine Node.within_branch_pair (outer.name ?_) name
    simpa [isName, grows] using named

theorem steady_scope (outer : Fits bound left) (named : isName left = true) :
    Steady limits (scope left) (Fits 2) := by
  refine tracks_advance.bind fun _ _ => (steady_identifier 0).bind fun name leaf => ?_
  have within := within_extend_scopedIdentifier outer named leaf
  have kind : (extend .scopedIdentifier left name).kind = .scopedIdentifier := by
    unfold extend
    split <;> rfl
  refine tracks_pure ⟨within, fun other => ?_, fun _ => within⟩
  rw [kind] at other
  cases other

/-- An operator surrounds its left operand. -/
theorem fits_infixNode (operator : Token) (one : Fits (bound + 3) left)
    (two : Fits (bound + 1) part) : Fits (bound + 3) (infixNode operator left part) := by
  have right : ∀ child ∈ [part], child.Within (bound + 2) :=
    List.forall_mem_singleton.mpr (two.within.mono (Nat.le_add_right _ 1))
  have surrounds : ∀ {kind : NodeKind}, kind.surrounds left.kind = true →
      (Node.branch kind [left, part]).Within (bound + 3) :=
    fun holds => Node.within_of_surrounds rfl holds one.within right
  unfold infixNode
  split
  · exact fits_of_within (surrounds rfl) rfl
  · exact fits_of_within (surrounds rfl) rfl
  · exact fits_of_within ((Node.within_withText _).mpr (surrounds rfl)) rfl

theorem steady_leaf (kind : NodeKind) : Steady limits (leaf kind) (Fits (bound + 3)) :=
  tracks_advance.bind fun _ _ => tracks_pure
    ⟨Node.within_leaf _ _, fun _ => Node.within_leaf _ _, fun _ => Node.within_leaf _ _⟩

/-! ## Arguments and literals -/

theorem steady_propertyKey (bound : Nat) :
    Steady limits propertyKey (Node.Within (bound + 1)) := by
  refine tracks_current.bind fun key member => ?_
  split
  · exact Rule.steady_leaf _ _
  · exact Rule.steady_leaf _ _
  · exact tracks_refuse member _

section

variable {inner taller : Nat → Rule Node}
  (nested : ∀ power, Tracks limits (inner power) (taller power) (Fits (bound + 1)))

include nested

/-- The nested expressions are within the bound. -/
theorem tracks_within (power : Nat) :
    Tracks limits (inner power) (taller power) (Node.Within (bound + 1)) :=
  (nested power).mono fun _ fits => fits.within

theorem tracks_arguments :
    Tracks limits (arguments inner) (arguments taller) (All (Node.Within (bound + 2))) := by
  refine tracks_advance.bind fun _ _ => ?_
  refine (tracks_delimited tracks_comma (tracks_within nested 0)).bind fun values within => ?_
  refine tracks_advance.bind fun _ _ => tracks_pure ?_
  by_cases empty : values.isEmpty = true
  · rw [if_pos empty]
    exact All.nil
  · rw [if_neg empty]
    exact List.forall_mem_singleton.mpr (Node.within_of_children within)

theorem tracks_array :
    Tracks limits (array inner) (array taller) (Fits (bound + 3)) := by
  refine tracks_advance.bind fun start _ => ?_
  refine (tracks_delimited tracks_comma (tracks_within nested 0)).bind fun elements within => ?_
  refine tracks_advance.bind fun stop _ => tracks_pure (fits_of_within ?_ rfl)
  have whole : (Node.spanning .arrayLiteral elements (some (start.span.through stop.span))).Within
      (bound + 2) := Node.within_of_children within
  exact whole.mono (Nat.le_add_right _ 1)

theorem tracks_property :
    Tracks limits (property inner) (property taller) (Node.Within (bound + 2)) := by
  refine (steady_propertyKey bound).bind fun key keyed => (tracks_expect _ _).bind fun _ _ => ?_
  exact (tracks_within nested 0).bind fun value within =>
    tracks_pure (Node.within_branch_pair keyed within)

theorem tracks_object :
    Tracks limits (object inner) (object taller) (Fits (bound + 3)) := by
  have separates : Steady limits (do comma; skipNewlines) fun _ => True :=
    tracks_comma.bind fun _ _ => tracks_skipNewlines
  have each : Tracks limits (do let found ← property inner; skipNewlines; return found)
      (do let found ← property taller; skipNewlines; return found) (Node.Within (bound + 2)) :=
    (tracks_property nested).bind fun found within => tracks_skipNewlines.bind fun _ _ =>
      tracks_pure within
  refine tracks_advance.bind fun start _ => tracks_skipNewlines.bind fun _ _ => ?_
  refine (tracks_delimited separates each).bind fun properties within => ?_
  exact tracks_advance.bind fun stop _ =>
    tracks_pure (fits_of_within (Node.within_of_children within) rfl)

/-! ## Operands -/

theorem tracks_operand :
    Tracks limits (operand inner) (operand taller) (Fits (bound + 3)) := by
  have unary : ∀ token : Token, Tracks limits
      (do
        let _ ← advance
        let value ← inner unaryPower
        return (Node.spanning .unaryExpression [value] (value.spanFrom token.span)).withText
          token.value)
      (do
        let _ ← advance
        let value ← taller unaryPower
        return (Node.spanning .unaryExpression [value] (value.spanFrom token.span)).withText
          token.value)
      (Fits (bound + 3)) := by
    intro token
    refine tracks_advance.bind fun _ _ => (tracks_within nested _).bind fun value within =>
      tracks_pure (fits_of_within ?_ rfl)
    have whole : (Node.spanning .unaryExpression [value] (value.spanFrom token.span)).Within
        (bound + 2) := Node.within_of_children (List.forall_mem_singleton.mpr within)
    exact (Node.within_withText _).mpr (whole.mono (Nat.le_add_right _ 1))
  refine tracks_current.bind fun token member => ?_
  split
  · exact unary token
  · exact unary token
  · exact steady_leaf _
  · exact steady_leaf _
  · exact steady_leaf _
  · exact steady_leaf _
  · -- parentheses leave no node behind
    refine tracks_advance.bind fun _ _ => (nested 0).bind fun value fits => ?_
    exact (tracks_expect _ _).bind fun _ _ => tracks_pure (fits.mono (by omega))
  · exact tracks_array nested
  · exact tracks_object nested
  · exact tracks_refuse member _

/-! ## Expressions -/

theorem tracks_member (receiver : Fits (bound + 3) left) :
    Tracks limits (member inner left) (member taller left) (Fits (bound + 3)) := by
  refine tracks_advance.bind fun _ _ => (steady_identifier (bound + 1)).bind fun name leaf => ?_
  refine (tracks_isAt _).bind fun called _ => .ite (fun _ => ?_) fun _ => ?_
  · refine (tracks_arguments nested).bind fun values within => ?_
    refine tracks_previous.bind fun close _ => tracks_pure (fits_of_within ?_ rfl)
    exact Node.within_of_surrounds rfl rfl receiver.within
      (List.forall_mem_cons.mpr ⟨leaf, within⟩)
  · exact tracks_pure (fits_extend_propertyAccess receiver leaf)

theorem tracks_call (callee : Fits (bound + 3) left) (named : isName left = true) :
    Tracks limits (call inner left) (call taller left) (Fits (bound + 3)) := by
  refine (tracks_arguments nested).bind fun values within => ?_
  refine tracks_previous.bind fun close _ => tracks_pure ?_
  have parts : ∀ part ∈ left :: values, part.Within (bound + 2) :=
    List.forall_mem_cons.mpr ⟨(callee.of_isName named).mono (Nat.le_add_left 2 bound), within⟩
  split
  · exact fits_of_within (Node.within_of_children parts) rfl
  · exact fits_of_within (Node.within_of_children parts) rfl

theorem tracks_tail (least : Nat) (operand : Fits (bound + 3) left) :
    Tracks limits (tail inner least left) (tail taller least left)
      (Round.Meets (Fits (bound + 3)) (Fits (bound + 3))) := by
  -- every round that goes on yields an operand of the same bound
  have again : ∀ node : Node, Fits (bound + 3) node → Steady limits (pure (Round.again node))
      (Round.Meets (Fits (bound + 3)) (Fits (bound + 3))) := fun _ fits => tracks_pure fits
  refine tracks_current.bind fun token member => ?_
  refine .ite (fun _ => (tracks_member nested operand).bind again) fun _ => ?_
  refine .ite (fun scopes => ?_) fun _ => .ite (fun calls => ?_) fun _ => ?_
  · have named : isName left = true := (Bool.and_eq_true_iff.mp scopes).2
    exact (steady_scope operand named).bind fun node fits =>
      again node (fits.mono (by omega))
  · have named : isName left = true := (Bool.and_eq_true_iff.mp calls).2
    exact (tracks_call nested operand named).bind again
  split
  · exact tracks_pure operand
  · next power _ =>
    refine .ite (fun _ => tracks_pure operand) fun _ => ?_
    have operates : Tracks limits (operation inner power left) (operation taller power left)
        (Fits (bound + 3)) := by
      refine tracks_advance.bind fun operator _ => tracks_skipNewlines.bind fun _ _ => ?_
      exact (nested power.right).bind fun right fits =>
        tracks_pure (fits_infixNode operator operand fits)
    exact operates.bind again

end

/-- More levels read the same expressions, and those that were nested too deep. -/
theorem tracks_upTo {few many : Nat} (fewer : few ≤ many) (least : Nat) :
    Tracks limits (upTo few least) (upTo many least) (Fits (2 * few + 1)) := by
  induction few generalizing many least with
  | zero => exact tracks_tooDeep
  | succ few ih =>
    obtain ⟨many, rfl⟩ := Nat.exists_eq_succ_of_ne_zero (Nat.ne_zero_of_lt fewer)
    have nested : ∀ power, Tracks limits (upTo few power) (upTo many power) (Fits (2 * few + 1)) :=
      ih (Nat.le_of_succ_le_succ fewer)
    exact tracks_nested ((tracks_operand nested).bind fun _ operand =>
      tracks_loop (fun _ fits => tracks_tail nested least fits) operand)

/-- An expression is read alike under both limits, and its tree is bounded by the lower one. -/
theorem steady_rule : Steady limits rule (Node.Within (2 * limits.low + 1)) :=
  tracks_room fun few many fewer less =>
    (tracks_upTo fewer 0).mono fun _ fits => fits.within.mono (by omega)

end Expression

namespace Statement

/-! ## Lists of statements -/

theorem tracks_list {close : TokenKind} {statement taller : Rule Node} {good : Node → Prop}
    (each : Tracks limits statement taller good) :
    Tracks limits (list close statement) (list close taller) (All good) := by
  have rounds : ∀ found, All good found →
      Tracks limits (listRound close statement found) (listRound close taller found)
        (Round.Meets (All good) (All good)) := by
    intro found others
    refine tracks_current.bind fun token member => .ite (fun _ => tracks_pure others) fun _ => ?_
    refine .ite (fun _ => tracks_refuse_bind member _) fun _ => ?_
    refine each.bind fun next holds => tracks_current.bind fun behind stands => ?_
    have more : Steady limits (pure (Round.again (found ++ [next])))
        (Round.Meets (All good) (All good)) := tracks_pure (others.concat holds)
    refine .ite (fun _ => (tracks_skip _).bind fun _ _ => more) fun _ => ?_
    exact .ite (fun _ => tracks_refuse_bind stands _) fun _ => more
  exact (tracks_skip _).bind fun _ _ => tracks_loop rounds All.nil

/-! ## Simple statements -/

theorem steady_binding : Steady limits binding (Node.Within (2 * limits.low + 2)) := by
  refine tracks_advance.bind fun start _ => (steady_identifier (2 * limits.low)).bind
    fun name leaf => (tracks_expect _ _).bind fun _ _ => ?_
  refine Expression.steady_rule.bind fun value within => tracks_pure (Node.within_of_children ?_)
  exact List.forall_mem_cons.mpr ⟨leaf, List.forall_mem_singleton.mpr within⟩

theorem steady_assignment : Steady limits assignment (Node.Within (2 * limits.low + 2)) := by
  refine (Rule.steady_leaf (2 * limits.low) _).bind fun name leaf => ?_
  refine tracks_advance.bind fun _ _ => Expression.steady_rule.bind fun value within => ?_
  exact tracks_pure (Node.within_branch_pair leaf within)

theorem steady_returning : Steady limits returning (Node.Within (2 * limits.low + 2)) := by
  refine tracks_advance.bind fun start _ => (tracks_isAtAny _).bind fun ends _ => ?_
  refine .ite (fun _ => tracks_pure ?_) fun _ => ?_
  · exact Node.within_of_children (List.forall_mem_nil _)
  · exact Expression.steady_rule.bind fun value within =>
      tracks_pure (Node.within_of_children (List.forall_mem_singleton.mpr within))

theorem steady_expression : Steady limits expression (Node.Within (2 * limits.low + 2)) := by
  refine Expression.steady_rule.bind fun value within => tracks_pure ?_
  split
  · exact within.mono (Nat.le_succ _)
  · exact Node.within_branch_singleton within

/-! ## Function definitions -/

theorem steady_parameter : Steady limits parameter (Node.Within (4 * limits.low + 2)) := by
  refine (steady_identifier (4 * limits.low)).bind fun name leaf => ?_
  refine (tracks_expect _ _).bind fun _ _ => TypeExpr.steady_rule.bind fun type within => ?_
  exact tracks_pure (Node.within_branch_pair leaf within)

theorem steady_parameters :
    Steady limits parameters (All (Node.Within (4 * limits.low + 3))) := by
  refine (tracks_delimited tracks_comma steady_parameter).bind fun found within => ?_
  refine tracks_advance.bind fun _ _ => tracks_pure ?_
  by_cases empty : found.isEmpty = true
  · rw [if_pos empty]
    exact All.nil
  · rw [if_neg empty]
    exact List.forall_mem_singleton.mpr
      ((Node.within_withField _).mpr (Node.within_of_children within))

theorem steady_returnType :
    Steady limits returnType (All (Node.Within (4 * limits.low + 3))) := by
  refine (tracks_isAt _).bind fun announced _ => .ite (fun _ => ?_) fun _ => tracks_pure All.nil
  refine tracks_advance.bind fun _ _ => TypeExpr.steady_rule.bind fun type within => ?_
  exact tracks_pure (List.forall_mem_singleton.mpr
    ((Node.within_withField _).mpr (within.mono (Nat.le_add_right _ 2))))

variable {block tallerBlock other tallerOther : Rule Node}

/-- A function is one level higher than its block, which is at least as high as its types. -/
theorem tracks_function (types : 4 * limits.low + 3 ≤ bound)
    (body : Tracks limits block tallerBlock (Node.Within bound)) :
    Tracks limits (function block) (function tallerBlock) (Node.Within (bound + 1)) := by
  refine tracks_advance.bind fun start _ => (steady_identifier (4 * limits.low + 2)).bind
    fun name leaf => (tracks_expect _ _).bind fun _ _ => ?_
  refine steady_parameters.bind fun given one => steady_returnType.bind fun result two => ?_
  refine body.bind fun inner three => tracks_pure (Node.within_of_children ?_)
  refine List.forall_mem_cons.mpr ⟨(Node.within_withField _).mpr (leaf.mono types), ?_⟩
  refine List.forall_mem_append.mpr ⟨List.forall_mem_append.mpr ⟨?_, ?_⟩, ?_⟩
  · exact fun child member => (one child member).mono types
  · exact fun child member => (two child member).mono types
  · exact List.forall_mem_singleton.mpr ((Node.within_withField _).mpr three)

/-! ## Blocks and conditionals -/

theorem tracks_braced {body taller : Rule (List Node)}
    (inside : Tracks limits body taller (All (Node.Within bound))) :
    Tracks limits (braced body) (braced taller) (Node.Within (bound + 1)) := by
  refine tracks_current.bind fun start member => .ite (fun _ => tracks_refuse_bind member _)
    fun _ => ?_
  have between : Tracks limits
      (nested do let _ ← advance; let statements ← body; return (statements, ← advance))
      (nested do let _ ← advance; let statements ← taller; return (statements, ← advance))
      fun pair => All (Node.Within bound) pair.1 :=
    tracks_nested (tracks_advance.bind fun _ _ => inside.bind fun statements within =>
      tracks_advance.bind fun stop _ => tracks_pure within)
  exact between.bind fun pair within => tracks_pure (Node.within_of_children within)

/-- Where there is no other branch, the state before the line ends is taken up again. -/
theorem tracks_alternative (one : Tracks limits block tallerBlock (Node.Within bound))
    (two : Tracks limits other tallerOther (Node.Within bound)) :
    Tracks limits (alternative block other) (alternative tallerBlock tallerOther)
      (All (Node.Within bound)) := by
  have branch : ∀ node : Node, node.Within bound →
      Steady limits (pure [node.withField "alternative"]) (All (Node.Within bound)) :=
    fun _ within => tracks_pure
      (List.forall_mem_singleton.mpr ((Node.within_withField _).mpr within))
  refine tracks_get fun start admits => tracks_skipNewlines.bind fun _ _ => ?_
  refine (tracks_isAt _).bind fun announced _ => .ite (fun _ => ?_) fun _ => ?_
  · refine tracks_advance.bind fun _ _ => (tracks_isAt _).bind fun chained _ => ?_
    exact .ite (fun _ => two.bind branch) fun _ => one.bind branch
  · exact (tracks_set admits).bind fun _ _ => tracks_pure All.nil

theorem tracks_conditional (condition : 2 * limits.low + 1 ≤ bound)
    (one : Tracks limits block tallerBlock (Node.Within bound))
    (two : Tracks limits other tallerOther (Node.Within bound)) :
    Tracks limits (conditional block other) (conditional tallerBlock tallerOther)
      (Node.Within (bound + 1)) := by
  refine tracks_advance.bind fun start _ => Expression.steady_rule.bind fun value decides => ?_
  refine one.bind fun consequence within => ?_
  refine (tracks_alternative one two).bind fun others behind => ?_
  refine tracks_pure (Node.within_of_children ?_)
  refine List.forall_mem_cons.mpr ⟨(Node.within_withField _).mpr (decides.mono condition), ?_⟩
  exact List.forall_mem_cons.mpr ⟨(Node.within_withField _).mpr within, behind⟩

theorem tracks_single (types : 4 * limits.low + 3 ≤ bound)
    (one : Tracks limits block tallerBlock (Node.Within bound))
    (two : Tracks limits other tallerOther (Node.Within bound)) :
    Tracks limits (single block other) (single tallerBlock tallerOther)
      (Node.Within (bound + 1)) := by
  have simple : ∀ node : Node, node.Within (2 * limits.low + 2) → node.Within (bound + 1) :=
    fun _ within => within.mono (by omega)
  refine tracks_current.bind fun token member => ?_
  split
  · exact tracks_function types one
  · exact steady_binding.mono simple
  · exact two.mono fun _ within => within.mono (Nat.le_succ _)
  · exact steady_returning.mono simple
  · exact (tracks_peek 1).bind fun behind _ => .ite (fun _ => steady_assignment.mono simple)
      fun _ => steady_expression.mono simple
  · exact steady_expression.mono simple

/-- A form is two levels higher than the statements between its braces. -/
theorem tracks_form (form : Form) {body taller : Rule (List Node)}
    (condition : 2 * limits.low ≤ bound)
    (inside : Tracks limits body taller (All (Node.Within bound)))
    (otherwise : Tracks limits other tallerOther (Node.Within bound)) :
    Tracks limits (form.rule body other) (form.rule taller tallerOther)
      (Node.Within (bound + 2)) := by
  cases form with
  | block => exact (tracks_braced inside).mono fun _ within => within.mono (Nat.le_succ _)
  | conditional =>
    refine tracks_conditional (by omega) (tracks_braced inside) ?_
    exact tracks_nested (otherwise.mono fun _ within => within.mono (Nat.le_succ _))

/-- More levels read the same forms, and those that were nested too deep. -/
theorem tracks_compound {few many : Nat} (fewer : few ≤ many) (form : Form) :
    Tracks limits (compound few form) (compound many form)
      (Node.Within (4 * limits.low + 5 + 3 * few)) := by
  induction few generalizing many form with
  | zero =>
    -- without any level there are no statements between the braces
    have deep : ∀ {body : Rule (List Node)} {other : Rule Node},
        Tracks limits (form.rule tooDeep tooDeep) (form.rule body other)
          (Node.Within (4 * limits.low + 5)) :=
      tracks_form form (by omega) tracks_tooDeep tracks_tooDeep
    cases many with
    | zero => exact deep
    | succ many => exact deep
  | succ few ih =>
    obtain ⟨many, rfl⟩ := Nat.exists_eq_succ_of_ne_zero (Nat.ne_zero_of_lt fewer)
    have inner : ∀ form : Form, Tracks limits (compound few form) (compound many form)
        (Node.Within (4 * limits.low + 5 + 3 * few)) := ih (Nat.le_of_succ_le_succ fewer)
    have types : 4 * limits.low + 3 ≤ 4 * limits.low + 5 + 3 * few := by omega
    have condition : 2 * limits.low ≤ 4 * limits.low + 5 + 3 * few + 1 := by omega
    exact tracks_form form condition
      (tracks_list (tracks_single types (inner .block) (inner .conditional)))
      ((inner .conditional).mono fun _ within => within.mono (Nat.le_succ _))

theorem steady_compoundRule (form : Form) :
    Steady limits (compoundRule form) (Node.Within (7 * limits.low + 5)) :=
  tracks_room fun few many fewer less =>
    (tracks_compound fewer form).mono fun _ within => within.mono (by omega)

/-- The statements of a text are read alike under both limits, and their trees are bounded by the
lower one. -/
theorem steady_all : Steady limits all (All (Node.Within (7 * limits.low + 6))) :=
  tracks_list (tracks_single (by omega) (steady_compoundRule .block)
    (steady_compoundRule .conditional))

end Statement

/-! ## Sections -/

namespace Pseudo

/-- What a section of a pseudo-kernel document may be blamed for. -/
inductive Blames (file : String) (part : Section) : Diagnostic → Prop
  /-- It ends inside a fenced block. -/
  | fence {diagnostic : Diagnostic} (failure : part.failure = some diagnostic) :
    Blames file part diagnostic
  /-- Something in a fenced block that makes no tokens. -/
  | unread {block : FencedBlock} {diagnostic : Diagnostic} (sound : part.failure = none)
    (member : .fenced block ∈ part.items)
    (refused : codeTokens .pseudo file ⟨block.firstLine, 1⟩ block.text = .error diagnostic) :
    Blames file part diagnostic
  /-- A token of a fenced block. -/
  | token {block : FencedBlock} {code : List Token} {token : Token} {cause : Cause}
    (sound : part.failure = none) (member : .fenced block ∈ part.items)
    (read : codeTokens .pseudo file ⟨block.firstLine, 1⟩ block.text = .ok code)
    (seen : token ∈ WalkM.seen code) : Blames file part ⟨cause, token.span⟩

variable {limits : Limits} {file : String} {part : Section}

/-- The nodes of a section are bounded by the lower limit. -/
abbrev IsLow (limits : Limits) (node : Node) : Prop := node.Within (7 * limits.low + 7)

theorem within_lineLeaves (kind : NodeKind) (block : FencedBlock) :
    All (Node.Within (bound + 1)) (lineLeaves kind block) := by
  intro node member
  obtain ⟨line, _, rfl⟩ := List.mem_map.mp member
  exact Node.within_leaf _ _

theorem within_codeNode (block : FencedBlock) : (codeNode block).Within (bound + 2) := by
  refine Node.within_of_children (List.forall_mem_append.mpr ⟨?_, within_lineLeaves _ block⟩)
  split
  · exact List.forall_mem_nil _
  · exact List.forall_mem_singleton.mpr (Node.within_leafOf _ _ _)

theorem within_linkNode (link : ContextLink) : (linkNode link).Within (bound + 2) := by
  refine Node.within_of_children (List.forall_mem_cons.mpr ⟨Node.within_leaf _ _, ?_⟩)
  cases link.description with
  | none => exact List.forall_mem_nil _
  | some description => exact List.forall_mem_singleton.mpr (Node.within_leaf _ _)

theorem tracks_fencedNode {block : FencedBlock} (sound : part.failure = none)
    (member : .fenced block ∈ part.items) :
    (fencedNode block).Tracks limits file (IsLow limits) (Blames file part) := by
  have takes : Statement.all.Takes fun _ => 0 :=
    Statement.gives_all.takes fun _ _ _ => Nat.zero_le _
  refine .ite (fun _ => ?_) fun _ => .ite (fun _ => ?_) fun _ => ?_
  · refine WalkM.tracks_file_bind (WalkM.tracks_ofExcept_bind (fun _ => .unread sound member) ?_)
    intro code read
    have statements : (WalkM.runRule Statement.all code : PseudoM (List Node)).Tracks limits file
        (All (Node.Within (7 * limits.low + 6))) (Blames file part) := by
      refine (WalkM.tracks_runRule Statement.steady_all takes (endsInput_code read)).mono
        (fun _ within => within) ?_
      rintro ⟨cause, span⟩ ⟨token, seen, rfl⟩
      exact .token sound member read seen
    exact statements.bind fun nodes within => WalkM.tracks_pure (Node.within_of_children within)
  · exact WalkM.tracks_pure (Node.within_of_children (within_lineLeaves _ block))
  · exact WalkM.tracks_pure (within_codeNode block)

theorem tracks_itemNode {item : Item} (sound : part.failure = none) (member : item ∈ part.items) :
    (itemNode item).Tracks limits file (IsLow limits) (Blames file part) := by
  cases item with
  | text block => exact WalkM.tracks_pure (Node.within_leafOf _ _ _)
  | link link => exact WalkM.tracks_pure (within_linkNode link)
  | fenced block => exact tracks_fencedNode sound member

/-- A section is read alike under both limits if its items are. -/
theorem tracks_section {good : Node → Prop} (headings : ∀ heading ∈ part.heading,
      good (headingNode heading))
    (items : ∀ item ∈ part.items, part.failure = none →
      (itemNode item).Tracks limits file good (Blames file part)) :
    (sectionNodes sectionRule part).Tracks limits file (All good) (Blames file part) := by
  unfold sectionNodes
  split
  · next diagnostic failure => exact WalkM.tracks_throw (.fence failure)
  · next sound =>
    refine (WalkM.tracks_mapM fun item member => items item member sound).bind fun found holds =>
      WalkM.tracks_pure (List.forall_mem_append.mpr ⟨fun node member => ?_, holds⟩)
    obtain ⟨heading, same, rfl⟩ := Option.map_eq_some_iff.mp (Option.mem_toList.mp member)
    exact headings heading same

/-- A section is read alike under both limits. -/
theorem tracks_sectionNodes (part : Section) :
    (sectionNodes sectionRule part).Tracks limits file (All (IsLow limits))
      (Blames file part) :=
  tracks_section (fun _ _ => Node.within_leafOf _ _ _) fun _ member sound =>
    tracks_itemNode sound member

end Pseudo

end DocGrammar
