import DocGrammar.Proofs.Pseudo.Expressions
import DocGrammar.Proofs.Tokens.Level
import DocGrammar.Pseudo.Statement

/-! # Statements as trees

The statements of pseudo code as trees, with the separators between them. A separator is any mix of
line ends and semicolons; between two statements there is at least one.

* **`StatementTree`**, **`BlockTree`**, **`BodyTree`** — statements, blocks and rows of statements.
* **`BodyTree.symbols`**, **`BodyTree.nodes`** — how statements are written and what they become.
* **`BodyTree.isLevel`** — statements can be written one after the other. -/

namespace DocGrammar

/-! ## Separators -/

/-- A mark that separates statements. -/
inductive Mark where
  /-- The end of a line. -/
  | newline
  /-- A semicolon. -/
  | semicolon
  deriving DecidableEq, Repr

/-- The symbol of a mark. -/
def Mark.symbol : Mark → Symbol .pseudo
  | newline => .newline
  | semicolon => .mark .semicolon

/-- One or more marks between two statements. -/
structure Separator where
  /-- The first mark. -/
  first : Mark
  /-- The marks behind it. -/
  others : List Mark

/-- The symbols of some marks. -/
def markSymbols (marks : List Mark) : List (Symbol .pseudo) := marks.map Mark.symbol

/-- The symbols of a separator. -/
def Separator.symbols (separator : Separator) : List (Symbol .pseudo) :=
  markSymbols (separator.first :: separator.others)

/-! ## Trees -/

/-- A parameter of a function. -/
structure ParameterTree where
  /-- The name. -/
  name : Name
  /-- The type. -/
  type : TypeTree .pseudo

mutual

/-- A statement. -/
inductive StatementTree where
  /-- The definition of a function. -/
  | function (name : Name) (parameters : List ParameterTree) (result : Option (TypeTree .pseudo))
      (body : BlockTree)
  /-- The binding of a new name. -/
  | binding (name : Name) (value : ExpressionTree)
  /-- A new value for a name. -/
  | assignment (name : Name) (value : ExpressionTree)
  /-- A conditional. -/
  | conditional (tree : ConditionalTree)
  /-- A return, with or without a value. -/
  | returning (value : Option ExpressionTree)
  /-- An expression. -/
  | expression (value : ExpressionTree)

/-- A conditional. -/
inductive ConditionalTree where
  /-- A condition, the block that it guards, and the other branch. -/
  | of (condition : ExpressionTree) (consequence : BlockTree) (otherwise : OtherwiseTree)

/-- The other branch of a conditional. -/
inductive OtherwiseTree where
  /-- No other branch. -/
  | none
  /-- A block. -/
  | block (tree : BlockTree)
  /-- Another conditional. -/
  | conditional (tree : ConditionalTree)

/-- A block. -/
inductive BlockTree where
  /-- Some marks and the statements behind them. -/
  | of (lead : List Mark) (body : BodyTree)

/-- Statements with separators between them. -/
inductive BodyTree where
  /-- No statement. -/
  | empty
  /-- A last statement. -/
  | last (statement : StatementTree)
  /-- A statement, a separator, and the statements behind it. -/
  | next (statement : StatementTree) (separator : Separator) (others : BodyTree)

end

/-- A whole text: some marks and the statements behind them. -/
structure ProgramTree where
  /-- The marks before the first statement. -/
  lead : List Mark
  /-- The statements. -/
  body : BodyTree

/-! ## Writing -/

/-- The symbol of the word that opens a function definition. -/
def fnSymbol : Symbol .pseudo := .word .fnWord "fn" (by decide +kernel) (by decide +kernel)

/-- The symbol of the word that opens a binding. -/
def letSymbol : Symbol .pseudo := .word .letWord "let" (by decide +kernel) (by decide +kernel)

/-- The symbol of the word that opens a conditional. -/
def ifSymbol : Symbol .pseudo := .word .ifWord "if" (by decide +kernel) (by decide +kernel)

/-- The symbol of the word before the other branch of a conditional. -/
def elseSymbol : Symbol .pseudo := .word .elseWord "else" (by decide +kernel) (by decide +kernel)

/-- The symbol of the word that opens a return. -/
def returnSymbol : Symbol .pseudo :=
  .word .returnWord "return" (by decide +kernel) (by decide +kernel)

/-- The symbols of a parameter. -/
def ParameterTree.symbols (tree : ParameterTree) : List (Symbol .pseudo) :=
  .name tree.name :: .colon :: tree.type.symbols

/-- The symbols of the return type of a function. -/
def resultSymbols : Option (TypeTree .pseudo) → List (Symbol .pseudo)
  | none => []
  | some type => .mark .arrow :: type.symbols

/-- The symbols of a function up to its body. -/
def headSymbols (name : Name) (parameters : List ParameterTree)
    (result : Option (TypeTree .pseudo)) : List (Symbol .pseudo) :=
  fnSymbol :: .name name ::
    (parenthesized (separated .comma (parameters.map ParameterTree.symbols)) ++
      resultSymbols result)

mutual

/-- The symbols of a statement. -/
def StatementTree.symbols : StatementTree → List (Symbol .pseudo)
  | .function name parameters result body => headSymbols name parameters result ++ body.symbols
  | .binding name value => letSymbol :: .name name :: .assign :: value.symbols
  | .assignment name value => .name name :: .assign :: value.symbols
  | .conditional tree => tree.symbols
  | .returning none => [returnSymbol]
  | .returning (some value) => returnSymbol :: value.symbols
  | .expression value => value.symbols

/-- The symbols of a conditional. -/
def ConditionalTree.symbols : ConditionalTree → List (Symbol .pseudo)
  | .of condition consequence otherwise =>
    ifSymbol :: (condition.symbols ++ (consequence.symbols ++ otherwise.symbols))

/-- The symbols of the other branch of a conditional. -/
def OtherwiseTree.symbols : OtherwiseTree → List (Symbol .pseudo)
  | .none => []
  | .block tree => elseSymbol :: tree.symbols
  | .conditional tree => elseSymbol :: tree.symbols

/-- The symbols of a block. -/
def BlockTree.symbols : BlockTree → List (Symbol .pseudo)
  | .of lead body =>
    .leftBrace :: (markSymbols lead ++ (body.symbols ++ [.rightBrace]))

/-- The symbols of some statements. -/
def BodyTree.symbols : BodyTree → List (Symbol .pseudo)
  | .empty => []
  | .last statement => statement.symbols
  | .next statement separator others =>
    statement.symbols ++ (separator.symbols ++ others.symbols)

end

/-- The symbols of a whole text. -/
def ProgramTree.symbols (tree : ProgramTree) : List (Symbol .pseudo) :=
  markSymbols tree.lead ++ tree.body.symbols

/-! ## Nodes -/

/-- The node of a parameter. -/
def ParameterTree.node (tree : ParameterTree) : Node :=
  .plain .parameter [nameNode tree.name, tree.type.node]

/-- The list of the parameters of a function, if there are any. -/
def parameterNodes (values : List Node) : List Node :=
  if values.isEmpty then [] else [(Node.plain .parameterList values).withField "parameters"]

/-- The node of the return type of a function, if there is one. -/
def resultNodes (result : Option (TypeTree .pseudo)) : List Node :=
  (result.map fun type => type.node.withField "return_type").toList

/-- The node of an expression as a statement. -/
def expressionNode (value : Node) : Node :=
  if value.kind = .systemFunctionCall then value else .plain .expressionStatement [value]

mutual

/-- The node of a statement. -/
def StatementTree.node : StatementTree → Node
  | .function name parameters result body =>
    .plain .functionDefinition ((nameNode name).withField "name" ::
      (parameterNodes (parameters.map ParameterTree.node) ++ resultNodes result ++
        [body.node.withField "body"]))
  | .binding name value => .plain .letBinding [nameNode name, value.node]
  | .assignment name value => .plain .assignment [nameNode name, value.node]
  | .conditional tree => tree.node
  | .returning value => .plain .returnStatement (value.map ExpressionTree.node).toList
  | .expression value => expressionNode value.node

/-- The node of a conditional. -/
def ConditionalTree.node : ConditionalTree → Node
  | .of condition consequence otherwise =>
    .plain .ifStatement (condition.node.withField "condition" ::
      consequence.node.withField "consequence" :: otherwise.nodes)

/-- The node of the other branch of a conditional, if there is one. -/
def OtherwiseTree.nodes : OtherwiseTree → List Node
  | .none => []
  | .block tree => [tree.node.withField "alternative"]
  | .conditional tree => [tree.node.withField "alternative"]

/-- The node of a block. -/
def BlockTree.node : BlockTree → Node
  | .of _ body => .plain .block body.nodes

/-- The nodes of some statements. -/
def BodyTree.nodes : BodyTree → List Node
  | .empty => []
  | .last statement => [statement.node]
  | .next statement _ others => statement.node :: others.nodes

end

/-! ## Nesting -/

/-- The nesting of the deepest of some parameters. -/
def parametersNest : List ParameterTree → Nat
  | [] => 0
  | next :: others => max next.type.nest (parametersNest others)

/-- The nesting of the return type of a function. -/
def resultNest : Option (TypeTree .pseudo) → Nat
  | none => 0
  | some type => type.nest

mutual

/-- The nesting of a statement: that of its deepest expression, type or block. -/
def StatementTree.nest : StatementTree → Nat
  | .function _ parameters result body =>
    max (max (parametersNest parameters) (resultNest result)) body.nest
  | .binding _ value => value.nest
  | .assignment _ value => value.nest
  | .conditional tree => tree.nest
  | .returning none => 0
  | .returning (some value) => value.nest
  | .expression value => value.nest

/-- The nesting of a conditional. -/
def ConditionalTree.nest : ConditionalTree → Nat
  | .of condition consequence otherwise =>
    max condition.nest (max consequence.nest otherwise.nest)

/-- The nesting of the other branch of a conditional; a conditional there is one level deeper. -/
def OtherwiseTree.nest : OtherwiseTree → Nat
  | .none => 0
  | .block tree => tree.nest
  | .conditional tree => tree.nest + 1

/-- The nesting of a block, one more than that of its statements. -/
def BlockTree.nest : BlockTree → Nat
  | .of _ body => body.nest + 1

/-- The nesting of the deepest of some statements. -/
def BodyTree.nest : BodyTree → Nat
  | .empty => 0
  | .last statement => statement.nest
  | .next statement _ others => max statement.nest others.nest

end

/-! ## Statements can be written one after the other -/

theorem isLevel_markSymbols (marks : List Mark) : IsLevel (markSymbols marks) := by
  induction marks with
  | nil => exact isLevel_nil
  | cons mark marks ih =>
    have first : IsLevel [mark.symbol] := by
      cases mark with
      | newline =>
        exact isLevel_singleton ⟨TokenKind.noConfusion, TokenKind.noConfusion⟩ fun _ => rfl
      | semicolon => exact (isPhrase_singleton rfl).isLevel
    exact first.append ih

theorem isLevel_assign : IsLevel [(.assign : Symbol .pseudo)] :=
  isLevel_singleton ⟨TokenKind.noConfusion, TokenKind.noConfusion⟩ fun _ => rfl

theorem isLevel_elseSymbol : IsLevel [elseSymbol] :=
  (isPhrase_singleton rfl).isLevel

theorem ParameterTree.isPhrase (tree : ParameterTree) : IsPhrase tree.symbols :=
  (tree.type.isPhrase.cons rfl).cons rfl

theorem isPhrase_resultSymbols (result : Option (TypeTree .pseudo)) :
    IsPhrase (resultSymbols result) := by
  cases result with
  | none => exact isPhrase_nil
  | some type => exact type.isPhrase.cons rfl

theorem isPhrase_headSymbols (name : Name) (parameters : List ParameterTree)
    (result : Option (TypeTree .pseudo)) : IsPhrase (headSymbols name parameters result) := by
  have given : IsPhrase (parenthesized
      (separated .comma (parameters.map ParameterTree.symbols))) := by
    refine (isValue_parenthesized fun item member => ?_).toIsPhrase
    obtain ⟨tree, _, rfl⟩ := List.mem_map.mp member
    exact tree.isPhrase
  exact ((given.append (isPhrase_resultSymbols result)).cons rfl).cons rfl

/-- A row of symbols between braces ends a line. -/
theorem IsLevel.braced {symbols : List (Symbol .pseudo)} (inner : IsLevel symbols) :
    EndsLine (.leftBrace :: (symbols ++ [.rightBrace])) := by
  have brace : EndsLine [(.rightBrace : Symbol .pseudo)] :=
    endsLine_singleton (isPhrase_singleton rfl).isLevel rfl
      ⟨TokenKind.noConfusion, TokenKind.noConfusion⟩ rfl
  exact (isPhrase_singleton rfl).isLevel.append_endsLine (inner.append_endsLine brace)

mutual

/-- The line may end behind a statement. -/
theorem StatementTree.endsLine : ∀ tree : StatementTree, EndsLine tree.symbols
  | .function name parameters result body =>
    (isPhrase_headSymbols name parameters result).isLevel.append_endsLine body.endsLine
  | .binding name value => by
    have start : IsLevel [letSymbol, .name name] :=
      ((isPhrase_singleton rfl).cons rfl).isLevel
    exact start.append_endsLine (isLevel_assign.append_endsLine value.isValue.endsLine)
  | .assignment name value => by
    have start : IsLevel [Symbol.name name] := (isPhrase_singleton rfl).isLevel
    exact start.append_endsLine (isLevel_assign.append_endsLine value.isValue.endsLine)
  | .conditional tree => tree.endsLine
  | .returning none =>
    endsLine_singleton (isPhrase_singleton rfl).isLevel rfl
      ⟨TokenKind.noConfusion, TokenKind.noConfusion⟩ rfl
  | .returning (some value) => by
    have start : IsLevel [returnSymbol] := (isPhrase_singleton rfl).isLevel
    exact start.append_endsLine value.isValue.endsLine
  | .expression value => value.isValue.endsLine

theorem ConditionalTree.endsLine : ∀ tree : ConditionalTree, EndsLine tree.symbols
  | .of condition consequence otherwise => by
    have start : IsLevel (ifSymbol :: condition.symbols) :=
      (condition.isValue.toIsPhrase.cons rfl).isLevel
    exact start.append_endsLine (OtherwiseTree.endsLine otherwise _ consequence.endsLine)

/-- The line may end behind the other branch of a conditional, or, without one, behind the block
before it. -/
theorem OtherwiseTree.endsLine : ∀ (tree : OtherwiseTree) (before : List (Symbol .pseudo)),
    EndsLine before → EndsLine (before ++ tree.symbols)
  | .none, before, ends => by
    rw [OtherwiseTree.symbols, List.append_nil]
    exact ends
  | .block tree, before, ends =>
    ends.toIsLevel.append_endsLine (isLevel_elseSymbol.append_endsLine tree.endsLine)
  | .conditional tree, before, ends =>
    ends.toIsLevel.append_endsLine (isLevel_elseSymbol.append_endsLine tree.endsLine)

theorem BlockTree.endsLine : ∀ tree : BlockTree, EndsLine tree.symbols
  | .of lead body => by
    have inner := ((isLevel_markSymbols lead).append body.isLevel).braced
    rw [List.append_assoc] at inner
    exact inner

/-- Statements leave no bracket open. -/
theorem BodyTree.isLevel : ∀ tree : BodyTree, IsLevel tree.symbols
  | .empty => isLevel_nil
  | .last statement => statement.endsLine.toIsLevel
  | .next statement separator others =>
    statement.endsLine.toIsLevel.append
      ((isLevel_markSymbols (separator.first :: separator.others)).append others.isLevel)

end

end DocGrammar
