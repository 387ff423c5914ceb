import DocGrammar.Proofs.Rules.Limits
import DocGrammar.Proofs.Trees.Height
import DocGrammar.Rule.TypeExpr

/-! # Types under two limits

Under a greater limit a type is read as before, unless it was nested too deep. Brackets and bars
surround what was read, and every other form is nested, so that a level of nesting adds at most four
levels of nodes.

* **`TypeExpr.tracks_upTo`** — types up to a number of levels.
* **`TypeExpr.steady_rule`**, **`TypeExpr.steady_complete`** — types. -/

namespace DocGrammar

namespace Rule

variable {limits : TokenLimits}

/-- A leaf is below any bound. -/
theorem steady_leaf (bound : Nat) (kind : NodeKind) :
    Steady limits (leaf kind) (Node.Within (bound + 1)) :=
  tracks_advance.bind fun _ _ => tracks_pure (Node.within_leaf _ _)

theorem steady_identifier (bound : Nat) : Steady limits identifier (Node.Within (bound + 1)) :=
  (tracks_expect _ _).bind fun _ _ => tracks_pure (Node.within_leaf _ _)

end Rule

namespace TypeExpr

open Rule

variable {limits : TokenLimits} {inner taller : Rule Node} {bound : Nat} {node : Node}

/-! ## Atoms -/

theorem tracks_property (nested : Tracks limits inner taller (Node.Within (bound + 1))) :
    Tracks limits (property inner) (property taller) (Node.Within (bound + 2)) := by
  refine tracks_current.bind fun name member => .ite (fun _ => tracks_refuse_bind member _)
    fun _ => tracks_advance.bind fun _ _ => ?_
  refine tracks_current.bind fun mark member => .ite (fun _ => tracks_refuse_bind member _)
    fun _ => tracks_advance.bind fun _ _ => ?_
  exact nested.bind fun type within =>
    tracks_pure (Node.within_branch_pair (Node.within_leaf _ _) within)

theorem tracks_propertyRound (nested : Tracks limits inner taller (Node.Within (bound + 1)))
    {found : List Node} (others : All (Node.Within (bound + 2)) found) :
    Tracks limits (propertyRound inner found) (propertyRound taller found)
      (Round.Meets (All (Node.Within (bound + 2))) (All (Node.Within (bound + 2)))) := by
  have more : Tracks limits
      (do let next ← property inner; skipNewlines; return Round.again (found ++ [next]))
      (do let next ← property taller; skipNewlines; return Round.again (found ++ [next]))
      (Round.Meets (All (Node.Within (bound + 2))) (All (Node.Within (bound + 2)))) :=
    (tracks_property nested).bind fun next within => tracks_skipNewlines.bind fun _ _ =>
      tracks_pure (others.concat within)
  refine (tracks_isAt _).bind fun closes _ => .ite (fun _ => tracks_pure others) fun _ => ?_
  refine .ite (fun _ => more) fun _ => ?_
  -- a comma stands behind the other properties, and may stand before the closing brace
  refine tracks_current.bind fun mark member => .ite (fun _ => tracks_refuse_bind member _)
    fun _ => tracks_advance.bind fun _ _ => tracks_skipNewlines.bind fun _ _ => ?_
  exact (tracks_isAt _).bind fun closes _ => .ite (fun _ => tracks_pure others) fun _ => more

theorem tracks_object (nested : Tracks limits inner taller (Node.Within (bound + 1))) :
    Tracks limits (object inner) (object taller) (Node.Within (bound + 3)) := by
  have body : Tracks limits (properties inner) (properties taller)
      (All (Node.Within (bound + 2))) :=
    tracks_loop (fun _ others => tracks_propertyRound nested others) All.nil
  refine tracks_advance.bind fun start _ => tracks_skipNewlines.bind fun _ _ => ?_
  exact body.bind fun found within => tracks_advance.bind fun stop _ =>
    tracks_pure (Node.within_of_children within)

theorem tracks_generic (nested : Tracks limits inner taller (Node.Within (bound + 1))) :
    Tracks limits (generic inner) (generic taller) (Node.Within (bound + 2)) := by
  refine tracks_advance.bind fun name _ => tracks_advance.bind fun _ _ => ?_
  refine (tracks_chain nested).bind fun arguments within => ?_
  refine tracks_current.bind fun mark member => .ite (fun _ => tracks_refuse_bind member _)
    fun _ => tracks_advance.bind fun stop _ => tracks_pure (Node.within_of_children ?_)
  exact List.forall_mem_cons.mpr ⟨Node.within_leaf _ _, within⟩

/-- A wrapping that surrounds nothing adds a level. -/
theorem within_wrap (inside : node.Within bound) : (wrap node).Within (bound + 1) :=
  Node.within_of_children (List.forall_mem_singleton.mpr inside)

theorem tracks_atom (nested : Tracks limits inner taller (Node.Within (bound + 1))) :
    Tracks limits (atom inner) (atom taller) (Node.Within (bound + 4)) := by
  refine tracks_current.bind fun token member => .ite (fun _ => ?_) fun _ => ?_
  · exact (tracks_object nested).bind fun found within => tracks_pure (within_wrap within)
  refine .ite (fun _ => tracks_refuse_bind member _) fun _ => ?_
  refine (tracks_peek 1).bind fun behind _ => .ite (fun _ => ?_) fun _ => ?_
  · exact (tracks_generic nested).bind fun found within =>
      tracks_pure ((within_wrap within).mono (Nat.le_add_right _ 1))
  · exact tracks_advance.bind fun _ _ => tracks_pure (within_wrap (Node.within_leaf _ _))

/-! ## Arrays and unions -/

/-- An array surrounds its elements, and the wrapping surrounds the array. -/
theorem steady_bracketRound (element : node.Within (bound + 1)) :
    Steady limits (bracketRound node)
      (Round.Meets (Node.Within (bound + 1)) (Node.Within (bound + 1))) := by
  refine (tracks_isAt _).bind fun opens _ => .ite (fun _ => ?_) fun _ => tracks_pure element
  refine (tracks_peek 1).bind fun behind _ => .ite (fun _ => ?_) fun _ => tracks_pure element
  refine tracks_advance.bind fun _ _ => tracks_advance.bind fun close _ => tracks_pure ?_
  have array : (Node.spanning .arrayType [node] (node.spanTo close.span)).Within (bound + 1) :=
    Node.within_of_surrounds rfl rfl element (List.forall_mem_nil _)
  exact Node.within_of_surrounds rfl rfl array (List.forall_mem_nil _)

theorem tracks_array (nested : Tracks limits inner taller (Node.Within (bound + 1))) :
    Tracks limits (array inner) (array taller) (Node.Within (bound + 4)) :=
  (tracks_atom nested).bind fun _ within =>
    tracks_loop (fun _ element => steady_bracketRound element) within

/-- A union surrounds the one before it, and is one level higher than its last alternative. -/
theorem tracks_unionRound (nested : Tracks limits inner taller (Node.Within (bound + 1)))
    (left : node.Within (bound + 5)) :
    Tracks limits (unionRound inner node) (unionRound taller node)
      (Round.Meets (Node.Within (bound + 5)) (Node.Within (bound + 5))) := by
  refine (tracks_isAt _).bind fun separates _ => .ite (fun _ => ?_) fun _ => tracks_pure left
  refine tracks_advance.bind fun _ _ => (tracks_array nested).bind fun right within =>
    tracks_pure ?_
  have union : (Node.branch .unionType [node, right]).Within (bound + 5) :=
    Node.within_of_surrounds rfl rfl left (List.forall_mem_singleton.mpr within)
  exact Node.within_of_surrounds rfl rfl union (List.forall_mem_nil _)

theorem tracks_union (nested : Tracks limits inner taller (Node.Within (bound + 1))) :
    Tracks limits (union inner) (union taller) (Node.Within (bound + 5)) :=
  (tracks_array nested).bind fun _ within =>
    tracks_loop (fun _ left => tracks_unionRound nested left)
      (within.mono (Nat.le_add_right _ 1))

/-! ## Types -/

/-- More levels read the same types, and those that were nested too deep. -/
theorem tracks_upTo {few many : Nat} (fewer : few ≤ many) :
    Tracks limits (upTo few) (upTo many) (Node.Within (4 * few + 1)) := by
  induction few generalizing many with
  | zero => exact tracks_tooDeep
  | succ few ih =>
    obtain ⟨many, rfl⟩ := Nat.exists_eq_succ_of_ne_zero (Nat.ne_zero_of_lt fewer)
    exact tracks_nested (tracks_union (ih (Nat.le_of_succ_le_succ fewer)))

/-- A type is read alike under both limits, and its tree is bounded by the lower one. -/
theorem steady_rule : Steady limits rule (Node.Within (4 * limits.low + 1)) :=
  tracks_room fun few many fewer less =>
    (tracks_upTo fewer).mono fun _ within => within.mono (by omega)

theorem steady_complete : Steady limits complete (Node.Within (4 * limits.low + 1)) := by
  refine tracks_skipNewlines.bind fun _ _ => steady_rule.bind fun result within => ?_
  refine tracks_skipNewlines.bind fun _ _ => tracks_current.bind fun rest member => ?_
  exact .ite (fun _ => tracks_refuse_bind member _) fun _ => tracks_pure within

end TypeExpr

end DocGrammar
