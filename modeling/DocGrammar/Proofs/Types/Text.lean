import DocGrammar.Proofs.Trees.Height
import DocGrammar.Proofs.Types.Line

/-! # Types as texts

However the symbols of a type are spaced, the text is parsed as the type wherever the limit admits
its nesting. Brackets are not nested, so under any limit there are types of any height.

* **`TypeTree.text`** — the text of a type.
* **`TypeTree.exists_parseType`** — a type is read back from its text.
* **`bracketedName`** — a name with pairs of brackets behind it. -/

namespace DocGrammar

/-- The text of a type, given the gaps around its symbols. -/
def TypeTree.text (tree : TypeTree .none) (gaps : Nat → Gap) : String :=
  String.ofList (layout gaps tree.symbols)

/-- **A type is read back from its text**, if the limit admits its nesting. -/
theorem TypeTree.exists_parseType (tree : TypeTree .none) (gaps : Nat → Gap) (file : String)
    {limit : Int} (positive : 1 ≤ limit) (shallow : (tree.nest : Int) ≤ limit) :
    ∃ node, (parseType file limit (tree.text gaps)).tree = some node ∧ node.bare = tree.node := by
  obtain ⟨tokens, last, lexed, told, ends⟩ :=
    codeTokens_layout file tree.symbols gaps Position.origin (tree.isPhrase.fits _)
  rw [CodeState.emitted_of_noFeed tree.isPhrase.noFeed] at told
  obtain ⟨found, parsed, bare⟩ :=
    parseType_of_says positive lexed told ends tree.derivesType shallow
  refine ⟨found, ?_, bare⟩
  rw [TypeTree.text, parsed]

/-! ## Brackets -/

/-- Each pair of brackets adds two nodes above the element type. -/
theorem height_bracketed (pairs : Nat) (element : Node) :
    (bracketed pairs element).height = element.height + 2 * pairs := by
  induction pairs generalizing element with
  | zero => rfl
  | succ pairs ih =>
    rw [bracketed, ih, arrayTypeNode, typeNode, Node.height_plain_singleton,
      Node.height_plain_singleton]
    omega

/-- A name with some pairs of brackets behind it. -/
def bracketedName (pairs : Nat) : TypeTree .none :=
  .of (.of (.name ⟨"a", by decide, by decide⟩) pairs) []

/-- Under every limit there are types of any height. -/
theorem exists_parseType_of_height (file : String) {limit : Int} (positive : 1 ≤ limit)
    (pairs : Nat) :
    ∃ text tree, (parseType file limit text).tree = some tree ∧ tree.height = 2 * pairs + 2 := by
  have shallow : ((bracketedName pairs).nest : Int) ≤ limit := positive
  obtain ⟨tree, parsed, same⟩ :=
    (bracketedName pairs).exists_parseType (fun _ => ⟨[], rfl⟩) file positive shallow
  refine ⟨_, tree, parsed, ?_⟩
  have element : (nameTypeNode "a").height = 2 := by decide
  have node : (bracketedName pairs).node = bracketed pairs (nameTypeNode "a") := rfl
  rw [← Node.height_bare, same, node, height_bracketed, element]
  omega

end DocGrammar
