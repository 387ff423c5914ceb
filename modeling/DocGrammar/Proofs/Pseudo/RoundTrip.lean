import DocGrammar.Proofs.Documents.Run
import DocGrammar.Proofs.Pseudo.Depth
import DocGrammar.Proofs.Pseudo.Statements

/-! # Programs are read back

A program that is written down and read again is the same program: the text has tokens, and the rule
of statements builds the nodes of the program from them.

* **`ProgramTree.text`** — the text of a program.
* **`ProgramTree.text_reads_back`** — reading the text gives back the nodes. -/

namespace DocGrammar

open Rule RuleState Statement

namespace ProgramTree

/-! ## Programs -/

/-- The nesting of a program. -/
def nest (tree : ProgramTree) : Nat := tree.body.nest

/-- The nodes of a program. -/
def nodes (tree : ProgramTree) : List Node := tree.body.nodes

/-- The text of a program, given the gaps between its symbols. -/
def text (tree : ProgramTree) (gaps : Nat → Gap) : String :=
  String.ofList (layout gaps tree.symbols)

/-- The rule of whole texts reads every program that there is room for. -/
theorem reads (tree : ProgramTree) {state : CodeState} (closed : state.openBrackets = 0)
    {read : List Token} (told : Says read (state.emitted tree.symbols)) {last : Token}
    (ends : last.kind = .endOfInput) :
    Statement.all.Reads tree.nest read [last]
      (fun values => values.map Node.bare = tree.nodes) := by
  rw [ProgramTree.symbols, CodeState.emitted_append] at told
  obtain ⟨marks, body, rfl, saysLead, saysBody⟩ := told.of_append
  have behind := (isLevel_markSymbols tree.lead).level state closed
  have rounds := tree.body.loopReads _ _ _ tree.nest tree.nest behind
    (covers_compoundRule tree.nest)
    (Nat.le_refl _) (Nat.le_refl _) saysBody (.inr ends) [] []
  have list := reads_list (kind_of_marks _ _ saysLead) (tree.body.startsIn saysBody last [])
    rounds (by rw [ends]; decide)
  rw [ends] at list
  exact list

/-- **A program is read back from its text.** However its statements are separated and its symbols
are spaced, the text has tokens, and the rule of statements builds the nodes of the program from
them wherever there is room for its nesting, which is less than the number of the tokens. -/
theorem text_reads_back {μ : Type} (tree : ProgramTree) (gaps : Nat → Gap) (file : String)
    (start : Position) (state : WalkState μ) (roomy : tree.nest ≤ state.session.nesting.room) :
    ∃ tokens nodes, codeTokens .pseudo file start (tree.text gaps) = .ok tokens ∧
      tree.nest < tokens.length ∧
      WalkM.runRule Statement.all tokens state = .ok nodes state ∧
      Node.allSameAs nodes tree.nodes = true := by
  have level : IsLevel tree.symbols := (isLevel_markSymbols tree.lead).append tree.body.isLevel
  obtain ⟨tokens, last, lexed, told, ends⟩ :=
    codeTokens_layout file tree.symbols gaps start (level.fits _ rfl)
  have uncommented : ∀ token ∈ tokens ++ [last], token.kind ≠ .comment := by
    intro token member
    rcases List.mem_append.mp member with inside | isLast
    · exact told.kind_ne (by decide) rfl (by decide) token inside
    · rw [List.mem_singleton.mp isLast, ends]
      decide
  obtain ⟨nodes, holds, ran⟩ :=
    WalkM.exists_runRule (tree.reads rfl told ends) uncommented state roomy
  refine ⟨tokens ++ [last], nodes, lexed, ?_, ran, ?_⟩
  · -- every level costs a symbol that is no line end, and all of these become tokens
    have light : tree.nest ≤ weight tree.symbols := by
      have inner := tree.body.nest_le_weight
      rw [ProgramTree.symbols, weight_append]
      exact Nat.le_trans inner (Nat.le_add_left _ _)
    have count := weight_le_length_emitted (.start start) tree.symbols
    rw [List.length_append, told.length_eq]
    exact Nat.lt_succ_of_le (Nat.le_trans light count)
  · exact Node.allSameAs_of_map_bare holds

/-- The program that multiplies a sum, which needs parentheses. -/
theorem text_reads_back_product :
    let number (digit : Char) (isDigit : [digit].all isDigit = true) : ExpressionTree :=
      .number ⟨[digit], [], List.cons_ne_nil _ _, isDigit, rfl⟩
    let sum : ExpressionTree :=
      .binary ⟨.plus, ⟨11, 12⟩, rfl⟩ (number '1' (by decide)) (number '2' (by decide))
    let product : ExpressionTree :=
      .binary ⟨.star, ⟨13, 14⟩, rfl⟩ sum (number '3' (by decide))
    let tree : ProgramTree :=
      ⟨[], .last (.binding ⟨"x", by decide +kernel, by decide +kernel⟩ product)⟩
    let state : WalkState Unit := ⟨⟨"p", ⟨8, 0⟩, [], []⟩, ()⟩
    tree.text (fun _ => ⟨[], rfl⟩) = "let x=(1+2)*3" ∧ tree.nest ≤ state.session.nesting.room ∧
      ∃ tokens nodes, codeTokens .pseudo "p" ⟨1, 1⟩ (tree.text fun _ => ⟨[], rfl⟩) = .ok tokens ∧
        tree.nest < tokens.length ∧
        WalkM.runRule Statement.all tokens state = .ok nodes state ∧
        Node.allSameAs nodes tree.nodes = true := by
  intro number sum product tree state
  have roomy : tree.nest ≤ state.session.nesting.room := by decide
  exact ⟨by decide +kernel, roomy, text_reads_back tree _ "p" ⟨1, 1⟩ state roomy⟩

end ProgramTree

end DocGrammar
