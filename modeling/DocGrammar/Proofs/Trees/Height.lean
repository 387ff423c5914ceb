import DocGrammar.Proofs.Trees.Bare

/-! # The height of trees

The height of a tree is the number of nodes on its longest path downwards. A node that a repetition
makes around the node read before, such as an operator around its left operand, opens no level of
nesting. The nested height leaves these out: where a path goes on from such a node to its first
child, the node does not count.

* **`Node.heightBy`** — the height of a tree without some nodes.
* **`Node.height`**, **`Node.nestedHeight`** — with all nodes, and without those of repetitions.
* **`Node.height_eq_nestedHeight`** — they agree where there are no nodes of repetitions.
* **`Node.Within`** — bounds of nested heights, with a rule for each way of making a node. -/

namespace DocGrammar

/-- Whether a node of a kind is what a repetition makes around a node that was read before, its
first child. Types are wrapped, so that a repetition makes a wrapping as well. -/
def NodeKind.surrounds : NodeKind → NodeKind → Bool
  | .typeSpecification, .arrayType | .typeSpecification, .unionType => true
  | .arrayType, _ | .unionType, _ | .binaryExpression, _ | .pipeExpression, _
  | .rangeExpression, _ | .methodCall, _ | .propertyAccess, _ => true
  | _, _ => false

namespace Node

/-! ## Heights -/

mutual

/-- The height of a tree. A node does not count on the way to its first child where `free` holds of
their kinds. -/
def heightBy (free : NodeKind → NodeKind → Bool) : Node → Nat
  | ⟨kind, children, _, _, _⟩ =>
    max 1 (reach free (fun child => if free kind child then 0 else 1) children)

/-- The greatest height of some trees with a step to each: `step` to the first one, which depends on
its kind, and one to every other. -/
def reach (free : NodeKind → NodeKind → Bool) (step : NodeKind → Nat) : List Node → Nat
  | [] => 0
  | node :: others => max (heightBy free node + step node.kind) (reach free (fun _ => 1) others)

end

/-- The number of nodes on the longest path downwards. -/
def height (node : Node) : Nat := node.heightBy fun _ _ => false

/-- The number of nodes on the longest path downwards, without those that surround the next one. -/
def nestedHeight (node : Node) : Nat := node.heightBy NodeKind.surrounds

variable {free : NodeKind → NodeKind → Bool} {step : NodeKind → Nat} {node first : Node}
  {nodes others : List Node} {bound : Nat}

theorem heightBy_eq (free : NodeKind → NodeKind → Bool) (node : Node) :
    node.heightBy free =
      max 1 (reach free (fun child => if free node.kind child then 0 else 1) node.children) := by
  cases node
  rfl

mutual

/-- Spans make no tree higher. -/
theorem heightBy_bare (free : NodeKind → NodeKind → Bool) :
    ∀ node : Node, node.bare.heightBy free = node.heightBy free
  | ⟨kind, children, _, _, _⟩ => by
    rw [bare, heightBy, heightBy, reach_bareAll free _ children]

theorem reach_bareAll (free : NodeKind → NodeKind → Bool) (step : NodeKind → Nat) :
    ∀ nodes : List Node, reach free step (bareAll nodes) = reach free step nodes
  | [] => rfl
  | node :: others => by
    rw [bareAll, reach, reach, heightBy_bare free node, kind_bare,
      reach_bareAll free (fun _ => 1) others]

end

theorem height_bare (node : Node) : node.bare.height = node.height := heightBy_bare _ node

/-- A node around a single one is higher than it. -/
theorem height_plain_singleton (kind : NodeKind) (node : Node) :
    (plain kind [node]).height = node.height + 1 := by
  simp [height, plain, heightBy, reach]

/-- Whether a node surrounds its first child. -/
def surroundsFirst (node : Node) : Bool :=
  node.children.head?.any fun first => node.kind.surrounds first.kind

mutual

/-- Where no node surrounds another one, every node counts. -/
theorem height_eq_nestedHeight : ∀ node : Node,
    (∀ inner ∈ node.walk, inner.surroundsFirst = false) → node.height = node.nestedHeight
  | ⟨kind, children, text, field, span⟩, plain => by
    obtain ⟨top, below⟩ := List.forall_mem_cons.mp plain
    have steps : ∀ first, children.head? = some first → kind.surrounds first.kind = false := by
      intro first found
      have top : children.head?.any (fun first => kind.surrounds first.kind) = false := top
      rwa [found] at top
    have inside := reach_eq_reach children below
      (fun child => if kind.surrounds child then 0 else 1) fun first found => by
        rw [steps first found]
        rfl
    rw [height, nestedHeight, heightBy, heightBy, ← inside]
    rfl

theorem reach_eq_reach : ∀ nodes : List Node,
    (∀ inner ∈ walkAll nodes, inner.surroundsFirst = false) → ∀ step : NodeKind → Nat,
    (∀ first, nodes.head? = some first → step first.kind = 1) →
      reach (fun _ _ => false) (fun _ => 1) nodes = reach NodeKind.surrounds step nodes
  | [], _, _, _ => rfl
  | node :: others, plain, step, steps => by
    obtain ⟨here, behind⟩ := List.forall_mem_append.mp plain
    have first := height_eq_nestedHeight node here
    have later := reach_eq_reach others behind (fun _ => 1) fun _ _ => rfl
    unfold height nestedHeight at first
    rw [reach, reach, first, later, steps node rfl]

end

/-! ## What lies below a node -/

theorem reach_le (steps : ∀ kind, step kind ≤ 1)
    (below : ∀ node ∈ nodes, node.heightBy free ≤ bound) :
    reach free step nodes ≤ bound + 1 := by
  induction nodes generalizing step with
  | nil => exact Nat.zero_le _
  | cons node others ih =>
    obtain ⟨first, behind⟩ := List.forall_mem_cons.mp below
    have one := steps node.kind
    have more : reach free (fun _ => 1) others ≤ bound + 1 := ih (fun _ => Nat.le_refl 1) behind
    rw [reach]
    omega

theorem reach_concat_le (steps : ∀ kind, step kind ≤ 1)
    (inside : reach free step nodes ≤ bound + 1) (last : node.heightBy free ≤ bound) :
    reach free step (nodes ++ [node]) ≤ bound + 1 := by
  induction nodes generalizing step with
  | nil => exact reach_le steps (List.forall_mem_singleton.mpr last)
  | cons first others ih =>
    rw [reach] at inside
    have more : reach free (fun _ => 1) (others ++ [node]) ≤ bound + 1 :=
      ih (fun _ => Nat.le_refl 1) (by omega)
    rw [List.cons_append, reach]
    omega

/-! ## Bounds -/

/-- Whether a tree has at most some nested height. -/
def Within (bound : Nat) (node : Node) : Prop := node.nestedHeight ≤ bound

theorem Within.mono {more : Nat} (within : node.Within bound) (le : bound ≤ more) :
    node.Within more :=
  Nat.le_trans within le

@[simp] theorem within_withField (name : String) :
    (node.withField name).Within bound ↔ node.Within bound := by
  cases node
  rfl

@[simp] theorem within_withText (text : String) :
    (node.withText text).Within bound ↔ node.Within bound := by
  cases node
  rfl

/-- A node is at most one level higher than its children. -/
theorem within_of_children (below : ∀ child ∈ node.children, child.Within bound) :
    node.Within (bound + 1) := by
  have inside : reach NodeKind.surrounds (fun child => if node.kind.surrounds child then 0 else 1)
      node.children ≤ bound + 1 := reach_le (fun kind => by split <;> omega) below
  unfold Within nestedHeight
  rw [heightBy_eq]
  omega

theorem within_of_leaf (leaf : node.children = []) : node.Within 1 := by
  have none : ∀ child ∈ node.children, child.Within 0 := by
    rw [leaf]
    exact List.forall_mem_nil _
  exact within_of_children none

theorem within_leafOf (kind : NodeKind) (text : String) (span : Span) :
    (leafOf kind text span).Within (bound + 1) :=
  (within_of_leaf rfl).mono (Nat.le_add_left 1 bound)

theorem within_leaf (kind : NodeKind) (token : Token) : (leaf kind token).Within (bound + 1) :=
  within_leafOf kind token.value token.span

/-- A node around a single one adds a level. -/
theorem within_branch_singleton {kind : NodeKind} (inside : node.Within bound) :
    (branch kind [node]).Within (bound + 1) :=
  within_of_children (List.forall_mem_singleton.mpr inside)

theorem within_branch_pair {kind : NodeKind} {second : Node} (one : first.Within bound)
    (two : second.Within bound) : (branch kind [first, second]).Within (bound + 1) :=
  within_of_children (List.forall_mem_cons.mpr ⟨one, List.forall_mem_singleton.mpr two⟩)

/-- A node that surrounds its first child is no higher than it, and one level higher than the
others. -/
theorem within_of_surrounds (shape : node.children = first :: others)
    (surrounds : node.kind.surrounds first.kind = true) (inside : first.Within (bound + 1))
    (behind : ∀ child ∈ others, child.Within bound) : node.Within (bound + 1) := by
  have more : reach NodeKind.surrounds (fun _ => 1) others ≤ bound + 1 :=
    reach_le (fun _ => Nat.le_refl 1) behind
  unfold Within nestedHeight at inside ⊢
  rw [heightBy_eq, shape, reach, if_pos surrounds]
  omega

/-- A node may be given one more child that is lower than it. -/
theorem within_concat {kind : NodeKind} {part : Node} (same : node.kind = kind)
    (inside : node.Within (bound + 1)) (last : part.Within bound) :
    (branch kind (node.children ++ [part])).Within (bound + 1) := by
  subst same
  unfold Within nestedHeight at inside last ⊢
  rw [heightBy_eq] at inside ⊢
  have more : reach NodeKind.surrounds (fun child => if node.kind.surrounds child then 0 else 1)
      (node.children ++ [part]) ≤ bound + 1 :=
    reach_concat_le (fun kind => by split <;> omega) (by omega) last
  exact Nat.max_le.mpr ⟨by omega, more⟩

end Node

end DocGrammar
