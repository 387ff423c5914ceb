import DocGrammar.Proofs.Documents.Registered
import DocGrammar.Proofs.Text.Search

/-! # The place of the grammar name

The name in a directive is looked up in the whole line. It stands behind the fixed opening, but a
name can also be a piece of the word `grammars` in this opening, and then it is found there.

* **`offsetOf?_directiveLine`** — where a name is found in its line.
* **`grammarName_column`** — the leaf of the name in the tree of a document, for every name and
  every grammar of this library under it. -/

namespace DocGrammar

/-! ## The name in its line -/

/-- The word in the opening of a directive that can hold a name. -/
def openingWord : List Char := "grammars".toList

/-- A directive is the name between fixed texts, of which slashes cut off a word. -/
theorem directiveLine_eq (name : List Char) :
    directiveLine name =
      ['#', '!'] ++ '/' :: (openingWord ++ '/' :: (name ++ directiveClosing)) := rfl

namespace IsDirectiveName

variable {name : List Char}

theorem ne_nil (isName : IsDirectiveName name) : name ≠ [] := by
  rintro rfl
  exact absurd isName.starts (by decide)

/-- No slash stands in a name. -/
theorem noSlash (isName : IsDirectiveName name) : '/' ∉ name := by
  intro member
  exact absurd (isName.continues '/' member) (by decide)

/-- A name does not occur in the marks of a directive. -/
theorem not_infix_marks (isName : IsDirectiveName name) : ¬name <:+: ['#', '!'] := by
  intro occurs
  cases name with
  | nil => exact isName.ne_nil rfl
  | cons first others =>
    have letter : isGrammarNameStart first = true := isName.starts
    have member : first ∈ ['#', '!'] := occurs.mem List.mem_cons_self
    simp only [List.mem_cons, List.not_mem_nil, or_false] at member
    rcases member with rfl | rfl
    · exact absurd letter (by decide)
    · exact absurd letter (by decide)

end IsDirectiveName

/-- The offset at which a name is found in its directive: that in the word of the opening, if the
name occurs there, and else that of the name itself. -/
def nameOffset (name : List Char) : Nat :=
  ((offsetOf? name openingWord).map (· + 3)).getD 12

/-- The search for a name in its directive stops in the opening if the name occurs there. -/
theorem offsetOf?_directiveLine {name : List Char} (isName : IsDirectiveName name) :
    offsetOf? name (directiveLine name) = some (nameOffset name) := by
  have marks : offsetOf? name ['#', '!'] = none := offsetOf?_eq_none_iff.mpr isName.not_infix_marks
  have own : offsetOf? name (name ++ directiveClosing) = some 0 :=
    offsetOf?_of_prefix (List.prefix_append name directiveClosing)
  rw [directiveLine_eq, offsetOf?_append_cons isName.noSlash isName.ne_nil, marks,
    offsetOf?_append_cons isName.noSlash isName.ne_nil, own, nameOffset]
  cases offsetOf? name openingWord <;> rfl

/-- A name that occurs in the word of the opening is found before its own place. -/
theorem exists_of_infix_openingWord {name : List Char} (occurs : name <:+: openingWord) :
    ∃ before behind, openingWord = before ++ (name ++ behind) ∧
      nameOffset name = before.length + 3 := by
  obtain ⟨before, behind, cut, found⟩ := exists_offsetOf? occurs
  refine ⟨before, behind, cut, ?_⟩
  rw [nameOffset, found]
  rfl

/-- A name is found at its own place if and only if it does not occur in the opening. -/
theorem nameOffset_eq_iff (name : List Char) : nameOffset name = 12 ↔ ¬name <:+: openingWord := by
  constructor
  · intro own occurs
    obtain ⟨before, behind, cut, found⟩ := exists_of_infix_openingWord occurs
    have short : before.length ≤ openingWord.length := by
      rw [cut, List.length_append]
      omega
    have eight : openingWord.length = 8 := rfl
    omega
  · intro absent
    rw [nameOffset, offsetOf?_eq_none_iff.mpr absent]
    rfl

/-! ## The leaf of the name -/

section

variable {registry : Registry} {file text name : String} {limit : Int}
  {defaultGrammar : Option String} {tree : Node}

/-- What a walk over the sections of a document yields is put under the root of the document. -/
theorem exists_body_of_walk {μ : Type} {source : Document} {walk : WalkM μ (List Node)}
    {grammar : Option String} {memory : μ} {session : Session}
    (yields : (ParseResult.ofOutcome grammar
      (WalkM.run (do return source.root (← walk)) memory session)).tree = some tree) :
    ∃ body, tree = source.root body := by
  rw [WalkM.run_map] at yields
  cases outcome : walk ⟨session, memory⟩ with
  | ok body final =>
    rw [outcome] at yields
    exact ⟨body, (Option.some.inj yields).symm⟩
  | error failure final =>
    rw [outcome] at yields
    cases yields

/-- What the grammars of this library yield is a root over the nodes of the sections. -/
theorem exists_body_of_tree {grammar : Grammar} {source : Document} {session : Session}
    (standard : grammar.document = Specs.document ∨ grammar.document = Pseudo.document)
    (yields : (ParseResult.ofOutcome (some name) (grammar.document source session)).tree =
      some tree) : ∃ body, tree = source.root body := by
  rcases standard with specs | pseudo
  · rw [specs] at yields
    exact exists_body_of_walk yields
  · rw [pseudo] at yields
    exact exists_body_of_walk yields

/-- The tree of a document with a directive starts with the node of the directive. -/
theorem exists_root_of_tree {grammar : Grammar}
    (detected : detectGrammar text = some name) (found : registry.find? name = some grammar)
    (standard : grammar.document = Specs.document ∨ grammar.document = Pseudo.document)
    (yields : (parseDocument registry file limit defaultGrammar text).tree = some tree) :
    ∃ (source : Document) (body : List Node),
      source.directive = some ⟨firstLineToken file text, name⟩ ∧ tree = source.root body := by
  obtain ⟨positive, _, read, _⟩ := exists_read_of_tree yields
  obtain ⟨tokens, reads, _⟩ := exists_tokens_of_readDocument read
  obtain ⟨source, read, directive⟩ := readDocument_of_detectGrammar reads detected
  rw [parseDocument_of_read registry defaultGrammar positive read, directive, Option.map_some,
    Option.some_or, parseSections_of_selected (selectGrammar_of_find? found)] at yields
  obtain ⟨body, root⟩ := exists_body_of_tree standard yields
  exact ⟨source, body, directive, root⟩

end

/-- The node of a directive line holds the leaf of the name, where the line is searched for it. -/
theorem Directive.node_directiveLine (file : String) {name : String}
    (isName : IsDirectiveName name.toList) :
    (⟨Document.directiveToken file (directiveLine name.toList), name⟩ : Directive).node =
      .spanning .shebang
        [.leafOf .grammarName name ⟨file, ⟨1, nameOffset name.toList + 1⟩,
          ⟨1, nameOffset name.toList + name.length⟩⟩]
        (some ⟨file, ⟨1, 1⟩, ⟨1, name.length + 18⟩⟩) := by
  have width : (directiveLine name.toList).length = name.length + 18 := by
    rw [directiveLine, List.length_append, List.length_append, String.length_toList]
    have opening : directiveOpening.length = 12 := rfl
    have closing : directiveClosing.length = 6 := rfl
    omega
  have first : ((0 : Nat) : Int) + 1 = 1 := rfl
  have last : max (1 : Int) ((0 : Nat) + (name.length + 18 : Nat)) = name.length + 18 := by omega
  have behind : (nameOffset name.toList : Int) + 1 + name.length - 1 =
      nameOffset name.toList + name.length := by omega
  unfold Directive.node Document.directiveToken tokenAt
  simp only [String.toList_ofList, offsetOf?_directiveLine isName, Option.getD_some, width, first,
    last, behind]
  rfl

/-- In the tree of every document whose first line is a directive with a name that is registered
with a grammar of this library, the leaf of the name holds the name. It stands where the name does,
from column 13 on, if and only if the name does not occur in the word `grammars` of the opening;
else it stands where the name occurs in this word. -/
theorem grammarName_column (registry : Registry) (file : String) (limit : Int)
    (defaultGrammar : Option String) (name text : String) (isName : IsDirectiveName name.toList)
    (grammar : Grammar) (found : registry.find? name = some grammar)
    (standard : grammar.document = Specs.document ∨ grammar.document = Pseudo.document)
    (starts : dropReturn (firstLine text) = directiveLine name.toList) (tree : Node)
    (yields : (parseDocument registry file limit defaultGrammar text).tree = some tree) :
    ∃ (column : Int) (others : List Node),
      tree.children = .spanning .shebang
        [.leafOf .grammarName name ⟨file, ⟨1, column⟩, ⟨1, column + name.length - 1⟩⟩]
        (some ⟨file, ⟨1, 1⟩, ⟨1, name.length + 18⟩⟩) :: others ∧
      (column = 13 ↔ ¬name.toList <:+: "grammars".toList) ∧
      (name.toList <:+: "grammars".toList → ∃ before behind,
        "grammars".toList = before ++ (name.toList ++ behind) ∧ column = before.length + 4) := by
  have detected : detectGrammar text = some name := by
    refine grammarNameOf?_eq_some_iff.mpr ⟨isName, [], rfl, ?_⟩
    rw [List.append_nil]
    exact starts
  obtain ⟨source, body, directive, rfl⟩ := exists_root_of_tree detected found standard yields
  have last : (nameOffset name.toList : Int) + 1 + name.length - 1 =
      nameOffset name.toList + name.length := by omega
  -- a column counts from one, and the opening of a directive has twelve characters
  have own : (nameOffset name.toList : Int) + 1 = 13 ↔ nameOffset name.toList = 12 := by omega
  refine ⟨nameOffset name.toList + 1, body, ?_, own.trans (nameOffset_eq_iff name.toList), ?_⟩
  · show (source.directive.map Directive.node).toList ++ body = _
    rw [directive, firstLineToken, starts, Option.map_some, Option.toList_some,
      List.singleton_append, Directive.node_directiveLine file isName, last]
  · intro occurs
    obtain ⟨before, behind, cut, place⟩ := exists_of_infix_openingWord occurs
    exact ⟨before, behind, cut, by omega⟩

/-- A directive that a carriage return ends, with the name of the first grammar of this library. -/
theorem grammarName_column_specs : IsDirectiveName "specs".toList ∧
    Registry.builtIn.find? "specs" = some Grammar.specs ∧
    dropReturn (firstLine "#!/grammars/specs parse\r\n\n# Feature: a") =
      directiveLine "specs".toList ∧
    ∃ tree others, (parseDocument .builtIn "t" 3 none
      "#!/grammars/specs parse\r\n\n# Feature: a").tree = some tree ∧
      tree.children = .spanning .shebang
        [.leafOf .grammarName "specs" ⟨"t", ⟨1, 13⟩, ⟨1, 17⟩⟩]
        (some ⟨"t", ⟨1, 1⟩, ⟨1, 23⟩⟩) :: others := by
  have isName : IsDirectiveName "specs".toList :=
    isDirectiveName_of_isGrammarName (by cbv) (by decide)
  have found : Registry.builtIn.find? "specs" = some Grammar.specs := by rfl
  have starts : dropReturn (firstLine "#!/grammars/specs parse\r\n\n# Feature: a") =
      directiveLine "specs".toList := by decide
  have yields : (parseDocument .builtIn "t" 3 none
      "#!/grammars/specs parse\r\n\n# Feature: a").tree.isSome = true := by cbv
  obtain ⟨tree, root⟩ := Option.isSome_iff_exists.mp yields
  obtain ⟨column, others, children, place, _⟩ := grammarName_column .builtIn "t" 3 none "specs"
    "#!/grammars/specs parse\r\n\n# Feature: a" isName Grammar.specs found (Or.inl rfl) starts tree
    root
  have own : column = 13 := place.mpr (by decide)
  subst own
  exact ⟨isName, found, starts, tree, others, root, children⟩

/-- The name `a` is found in the opening, seven columns before its own place. -/
theorem grammarName_in_opening : IsDirectiveName "a".toList ∧
    (parseDocument ⟨[⟨"a", Specs.document, ""⟩]⟩ "t" 3 none "#!/grammars/a parse").tree.map
      (fun tree => (tree.walk.filter (·.kind = .grammarName)).map fun leaf => leaf.span) =
        some [some ⟨"t", ⟨1, 6⟩, ⟨1, 6⟩⟩] ∧ (6 : Int) ≠ 13 := by
  have isName : IsDirectiveName "a".toList :=
    isDirectiveName_of_isGrammarName (by cbv) (by decide)
  exact ⟨isName, by cbv, by decide⟩

end DocGrammar
