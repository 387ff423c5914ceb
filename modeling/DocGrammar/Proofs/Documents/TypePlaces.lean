import DocGrammar.Proofs.Pseudo.Fenced
import DocGrammar.Proofs.Specs.Inputs

/-! # Types wherever they stand

A text on one line is a type on its own exactly if it is the type of an input, and then it is the
same type as the return type of a function and as that of a parameter. The words of the text must be
names in every place, and it must hold no comment, which would hide what stands behind it.

* **`type_yields_alike`** — a type means the same in every place. -/

namespace DocGrammar

variable {file text : String} {limit : Int} {type other : Node}

/-! ## Trees up to spans -/

/-- An input determines its type, up to spans. -/
theorem bare_inputDocument :
    (inputDocument type).bare = (inputDocument other).bare ↔ type.bare = other.bare := by
  simp [inputDocument, Node.plain, Node.bare]

/-- A function determines the nodes in its head, up to spans. -/
theorem bare_pseudoDocument {head others : List Node}
    (same : head.map Node.bare = others.map Node.bare) :
    (pseudoDocument [functionNode head]).bare = (pseudoDocument [functionNode others]).bare := by
  simp [pseudoDocument, functionNode, Node.plain, Node.bare, same]

/-! ## Types of inputs -/

section Inputs

variable (positive : 1 ≤ limit) (isLine : '\n' ∉ text.toList)
  (trimmed : trim text.toList = text.toList) (uncommented : HasNoComment file text)

include positive isLine trimmed uncommented

/-- What is a type on its own is the type of an input. -/
theorem inputs_yields_of_parseType (free : HasFreeWords .specs file text)
    (yields : (parseType file limit text).Yields type) :
    (parseDocument .builtIn file limit (some Grammar.specs.name) (inputText text)).Yields
      (inputDocument type) := by
  obtain ⟨symbols, nest, begins, derives, shallow⟩ :=
    exists_symbols_of_parseType positive isLine uncommented free yields
  exact (inputs_yields positive trimmed begins derives shallow).congr
    (bare_inputDocument.mpr type.bare_bare)

/-- The line of an input that is read is a type on its own. -/
theorem exists_parseType_of_inputs
    (succeeds : (parseDocument .builtIn file limit (some Grammar.specs.name)
      (inputText text)).isSuccess = true) :
    ∃ type, (parseType file limit text).Yields type := by
  obtain ⟨form, state, tokens, last, lexed, seen, shallow⟩ :=
    exists_form_of_inputs positive isLine trimmed succeeds
  exact ⟨_, form.parseType_yields KeywordTable.isSeparate_specs positive isLine uncommented lexed
    seen shallow⟩

/-- What is the type of an input is a type on its own. -/
theorem parseType_yields_of_inputs (free : HasFreeWords .specs file text)
    (yields : (parseDocument .builtIn file limit (some Grammar.specs.name)
      (inputText text)).Yields (inputDocument type)) :
    (parseType file limit text).Yields type := by
  obtain ⟨other, alone⟩ :=
    exists_parseType_of_inputs positive isLine trimmed uncommented yields.1
  -- the text is some type on its own, hence the type of the input, which has only one
  have again := inputs_yields_of_parseType positive isLine trimmed uncommented free alone
  exact alone.congr (bare_inputDocument.mp (again.bare_eq yields))

end Inputs

/-! ## Types in every place -/

/-- **A type means the same wherever it stands.** Take a text on one line, without white space
around it and without comments, whose words neither specs nor pseudo code reserve. Under every
positive limit it is a type on its own exactly if it is the type of an input, and every input that
is read has a type. If it is a type on its own, it is the same type behind the arrow of a function
and behind the name of a parameter. -/
theorem type_yields_alike (file text : String) (limit : Int) (positive : 1 ≤ limit)
    (isLine : '\n' ∉ text.toList) (trimmed : trim text.toList = text.toList)
    (uncommented : HasNoComment file text) (free : HasFreeWords .specs file text)
    (freeCode : HasFreeWords .pseudo file text) :
    let inputs := parseDocument .builtIn file limit (some "specs") ("## Inputs\nx: " ++ text)
    let inCode := fun code =>
      parseDocument .builtIn file limit (some "pseudo-kernel") ("```pseudo\n" ++ code ++ "\n```")
    (∀ type, (parseType file limit text).Yields type ↔ inputs.Yields (inputDocument type)) ∧
    (inputs.isSuccess = true → ∃ type, inputs.Yields (inputDocument type)) ∧
    ∀ type, (parseType file limit text).Yields type →
      (inCode ("fn f() -> " ++ text ++ " \x7b\n\x7d")).Yields
        (pseudoDocument [functionNode [type.withField "return_type"]]) ∧
      (inCode ("fn f(x: " ++ text ++ ") \x7b\x7d")).Yields
        (pseudoDocument [functionNode [(Node.plain .parameterList
          [.plain .parameter [nameNode parameterName, type]]).withField "parameters"]]) := by
  intro inputs inCode
  refine ⟨fun type => ⟨?_, ?_⟩, fun succeeds => ?_, fun type yields => ?_⟩
  · exact inputs_yields_of_parseType positive isLine trimmed uncommented free
  · exact parseType_yields_of_inputs positive isLine trimmed uncommented free
  · obtain ⟨type, yields⟩ :=
      exists_parseType_of_inputs positive isLine trimmed uncommented succeeds
    exact ⟨type, inputs_yields_of_parseType positive isLine trimmed uncommented free yields⟩
  · obtain ⟨symbols, nest, begins, derives, shallow⟩ :=
      exists_symbols_of_parseType positive isLine uncommented freeCode yields
    exact ⟨(returnType_yields positive begins derives shallow).congr
        (bare_pseudoDocument (by simp)),
      (parameterType_yields positive begins derives shallow).congr
        (bare_pseudoDocument (by simp [Node.plain, Node.bare, Node.withField]))⟩

/-- The union of an object type, with a comma behind its last property, and a generic type. -/
theorem type_yields_alike_union :
    let text := "\x7ba: b[],\x7d | List<c>"
    let object := typeNode (.plain .objectType
      [.plain .propertyType [.plainLeaf .identifier "a", arrayTypeNode (nameTypeNode "b")]])
    let generic := typeNode (.plain .genericType [.plainLeaf .identifier "List", nameTypeNode "c"])
    let type := unionTypeNode object generic
    (1 : Int) ≤ 2 ∧ '\n' ∉ text.toList ∧ trim text.toList = text.toList ∧ HasNoComment "t" text ∧
      HasFreeWords .specs "t" text ∧ HasFreeWords .pseudo "t" text ∧
      (parseDocument .builtIn "t" 2 (some "specs") ("## Inputs\nx: " ++ text)).Yields
        (inputDocument type) ∧
      (parseDocument .builtIn "t" 2 (some "pseudo-kernel")
        ("```pseudo\n" ++ ("fn f() -> " ++ text ++ " \x7b\n\x7d") ++ "\n```")).Yields
        (pseudoDocument [functionNode [type.withField "return_type"]]) := by
  intro text object generic type
  -- the words are `a`, `b`, `List` and `c`
  have told : (codeTokens .none "t" Position.origin text).toOption.any (fun tokens =>
      tokens.all fun token => token.kind ≠ .comment && token.value ∉ KeywordTable.specs.map Prod.fst
        && token.value ∉ KeywordTable.pseudo.map Prod.fst) = true := by decide +kernel
  have inner : ∀ tokens, codeTokens .none "t" Position.origin text = .ok tokens →
      ∀ token ∈ tokens, token.kind ≠ .comment ∧
        token.value ∉ KeywordTable.specs.map Prod.fst ∧
        token.value ∉ KeywordTable.pseudo.map Prod.fst := by
    intro tokens lexed token member
    rw [lexed] at told
    have holds := List.all_eq_true.mp told token member
    simp only [Bool.and_eq_true, decide_eq_true_eq] at holds
    exact ⟨holds.1.1, holds.1.2, holds.2⟩
  have uncommented : HasNoComment "t" text :=
    fun tokens lexed token member => (inner tokens lexed token member).1
  have free : HasFreeWords .specs "t" text :=
    fun tokens lexed token member _ => (inner tokens lexed token member).2.1
  have freeCode : HasFreeWords .pseudo "t" text :=
    fun tokens lexed token member _ => (inner tokens lexed token member).2.2
  have isLine : '\n' ∉ text.toList := by decide
  have trimmed : trim text.toList = text.toList := by decide
  have alone : (parseType "t" 2 text).Yields type := by
    have found : (parseType "t" 2 text).tree.any (·.sameAs type) = true := by decide +kernel
    exact ⟨by decide +kernel, Option.any_eq_true _ _ |>.mp found⟩
  obtain ⟨alike, _, inCode⟩ :=
    type_yields_alike "t" text 2 (by decide) isLine trimmed uncommented free freeCode
  exact ⟨by decide, isLine, trimmed, uncommented, free, freeCode, (alike type).mp alone,
    (inCode type alone).1⟩

end DocGrammar
