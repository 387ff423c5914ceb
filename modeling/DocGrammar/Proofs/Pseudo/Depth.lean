import DocGrammar.Proofs.Pseudo.Program

/-! # Programs are nested less deep than they are long

Every level of nesting has a symbol of its own, so a limit of as many levels as there are tokens is
always enough.

* **`ExpressionTree.nest_le_weight`**, **`ProgramTree.nest_le_weight`** — the bounds. -/

namespace DocGrammar

/-! ## Expressions -/

/-- Parentheses weigh more than the level that they open. -/
theorem guardedInside_lt_weight {symbols : List (Symbol .pseudo)} {inside : Nat}
    (bound : inside < weight symbols) (power least : Nat) :
    guardedInside power least inside < weight (guarded power least symbols) := by
  unfold guardedInside guarded parenthesized
  split
  · simp only [weight_mark, weight_append, weight_nil]
    omega
  · exact bound

/-- The first of some rows and those behind it weigh as much as the rows with separators. -/
theorem weight_le_separated (first : List (Symbol .pseudo))
    (others : List (List (Symbol .pseudo))) :
    weight first + weight (separated .comma others) ≤
      weight (separated .comma (first :: others)) := by
  cases others with
  | nil => simp [separated]
  | cons next others =>
    have comma : weight (Symbol.comma :: next) = weight next + 1 := weight_cons rfl next
    simp only [separated, weight_append, List.flatMap_cons, comma]
    omega

theorem Path.weight_pos (path : Path) : 0 < weight path.symbols := by
  rw [Path.symbols, weight_name]
  exact Nat.succ_pos _

mutual

/-- An expression is nested less deep than it has symbols. -/
theorem ExpressionTree.inside_lt_weight : ∀ tree : ExpressionTree,
    tree.inside < weight tree.symbols
  | .number _ => Nat.zero_lt_one
  | .string _ => Nat.zero_lt_one
  | .boolean value => by cases value <;> exact Nat.zero_lt_one
  | .name path => path.weight_pos
  | .call callee arguments => by
    have inner := expressionsNest_le_weight arguments
    have name := callee.weight_pos
    simp only [ExpressionTree.inside, ExpressionTree.symbols, parenthesized, weight_append,
      weight_mark]
    omega
  | .method receiver _ arguments => by
    have inner := expressionsNest_le_weight arguments
    have outer := guardedInside_lt_weight receiver.inside_lt_weight receiver.power postfixPower
    simp only [ExpressionTree.inside, ExpressionTree.symbols, parenthesized, weight_append,
      weight_mark, weight_name]
    omega
  | .member receiver _ => by
    have outer := guardedInside_lt_weight receiver.inside_lt_weight receiver.power postfixPower
    simp only [ExpressionTree.inside, ExpressionTree.symbols, weight_append]
    omega
  | .unary _ operand => by
    have inner := guardedInside_lt_weight operand.inside_lt_weight operand.power unaryPower
    simp only [ExpressionTree.inside, ExpressionTree.symbols, weight_mark]
    omega
  -- parentheses around an operand add to both sides
  | .binary operator left right => by
    have one := guardedInside_lt_weight left.inside_lt_weight left.power operator.power.left
    have two := guardedInside_lt_weight right.inside_lt_weight right.power operator.power.right
    simp only [ExpressionTree.inside, ExpressionTree.symbols, InfixOperator.symbol, weight_append,
      weight_mark]
    omega
  | .array elements => by
    have inner := expressionsNest_le_weight elements
    simp only [ExpressionTree.inside, ExpressionTree.symbols, weight_append, weight_mark]
    omega
  | .object properties => by
    have inner := entriesNest_le_weight properties
    simp only [ExpressionTree.inside, ExpressionTree.symbols, weight_append, weight_mark]
    omega

theorem expressionsNest_le_weight : ∀ trees : List ExpressionTree,
    expressionsNest trees ≤ weight (separated .comma (expressionSymbols trees))
  | [] => Nat.le_refl _
  | next :: others => by
    have one := next.inside_lt_weight
    have more := expressionsNest_le_weight others
    have both := weight_le_separated next.symbols (expressionSymbols others)
    simp only [expressionsNest, expressionSymbols] at both ⊢
    omega

theorem EntryTree.nest_le_weight : ∀ tree : EntryTree, tree.nest ≤ weight tree.symbols
  | .of key value => by
    have inner := value.inside_lt_weight
    have first : weight (key.symbol :: .colon :: value.symbols) =
        weight (.colon :: value.symbols) + 1 := weight_cons (by cases key <;> rfl) _
    simp only [EntryTree.nest, EntryTree.symbols, first, weight_mark]
    omega

theorem entriesNest_le_weight : ∀ trees : List EntryTree,
    entriesNest trees ≤ weight (separated .comma (entrySymbols trees))
  | [] => Nat.le_refl _
  | next :: others => by
    have one := next.nest_le_weight
    have more := entriesNest_le_weight others
    have both := weight_le_separated next.symbols (entrySymbols others)
    simp only [entriesNest, entrySymbols] at both ⊢
    omega

end

/-- An expression is nested at most as deep as it has symbols. -/
theorem ExpressionTree.nest_le_weight (tree : ExpressionTree) : tree.nest ≤ weight tree.symbols :=
  tree.inside_lt_weight

/-! ## Statements -/

theorem parametersNest_le_weight (trees : List ParameterTree) :
    parametersNest trees ≤ weight (separated .comma (trees.map ParameterTree.symbols)) := by
  induction trees with
  | nil => exact Nat.le_refl _
  | cons next others ih =>
    have one := next.type.nest_le_weight
    have both := weight_le_separated next.symbols (others.map ParameterTree.symbols)
    simp only [parametersNest, List.map_cons, ParameterTree.symbols, weight_name,
      weight_mark] at both ⊢
    omega

theorem headNest_le_weight (name : Name) (parameters : List ParameterTree)
    (result : Option (TypeTree .pseudo)) :
    max (parametersNest parameters) (resultNest result) ≤
      weight (headSymbols name parameters result) := by
  have given := parametersNest_le_weight parameters
  have type : resultNest result ≤ weight (resultSymbols result) := by
    cases result with
    | none => exact Nat.le_refl _
    | some type =>
      have inner := type.nest_le_weight
      simp only [resultNest, resultSymbols, weight_mark]
      omega
  have word : weight (headSymbols name parameters result) = _ := weight_cons (by rfl) _
  simp only [word, parenthesized, weight_name, weight_append, weight_mark]
  omega

mutual

/-- A statement is nested at most as deep as it has symbols other than line ends. -/
theorem StatementTree.nest_le_weight : ∀ tree : StatementTree, tree.nest ≤ weight tree.symbols
  | .function name parameters result body => by
    have head := headNest_le_weight name parameters result
    have inner := BlockTree.nest_le_weight body
    simp only [StatementTree.nest, StatementTree.symbols, weight_append]
    omega
  | .binding name value => by
    have inner := value.nest_le_weight
    -- the keyword in front is one more symbol, for which no level is entered
    have word : weight (StatementTree.binding name value).symbols = _ := weight_cons (by rfl) _
    rw [word, StatementTree.nest, weight_name, weight_mark]
    omega
  | .assignment name value => by
    have inner := value.nest_le_weight
    simp only [StatementTree.nest, StatementTree.symbols, weight_name, weight_mark]
    omega
  | .conditional tree => ConditionalTree.nest_le_weight tree
  | .returning none => Nat.zero_le _
  | .returning (some value) => by
    have inner := value.nest_le_weight
    have word : weight (StatementTree.returning (some value)).symbols = _ :=
      weight_cons (by rfl) _
    rw [word, StatementTree.nest]
    omega
  | .expression value => value.nest_le_weight

theorem ConditionalTree.nest_le_weight : ∀ tree : ConditionalTree,
    tree.nest ≤ weight tree.symbols
  | .of condition consequence otherwise => by
    have one := condition.nest_le_weight
    have two := BlockTree.nest_le_weight consequence
    have three := OtherwiseTree.nest_le_weight otherwise
    have word : weight (ConditionalTree.of condition consequence otherwise).symbols = _ :=
      weight_cons (by rfl) _
    rw [word, ConditionalTree.nest, weight_append, weight_append]
    omega

theorem OtherwiseTree.nest_le_weight : ∀ tree : OtherwiseTree, tree.nest ≤ weight tree.symbols
  | .none => Nat.zero_le _
  | .block tree => by
    have inner := BlockTree.nest_le_weight tree
    have word : weight (OtherwiseTree.block tree).symbols = _ := weight_cons (by rfl) _
    rw [word, OtherwiseTree.nest]
    omega
  | .conditional tree => by
    have inner := ConditionalTree.nest_le_weight tree
    have word : weight (OtherwiseTree.conditional tree).symbols = _ := weight_cons (by rfl) _
    rw [word, OtherwiseTree.nest]
    omega

theorem BlockTree.nest_le_weight : ∀ tree : BlockTree, tree.nest ≤ weight tree.symbols
  | .of lead body => by
    have inner := BodyTree.nest_le_weight body
    simp only [BlockTree.nest, BlockTree.symbols, weight_mark, weight_append]
    omega

theorem BodyTree.nest_le_weight : ∀ tree : BodyTree, tree.nest ≤ weight tree.symbols
  | .empty => Nat.le_refl _
  | .last statement => StatementTree.nest_le_weight statement
  | .next statement separator others => by
    have one := StatementTree.nest_le_weight statement
    have more := BodyTree.nest_le_weight others
    simp only [BodyTree.nest, BodyTree.symbols, weight_append]
    omega

end

end DocGrammar
