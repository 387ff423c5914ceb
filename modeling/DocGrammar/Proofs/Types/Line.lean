import DocGrammar.Proofs.Types.Acceptance
import DocGrammar.Proofs.Types.Alike

/-! # Types on a line

A text on one line without comments is parsed as a type exactly if it begins with symbols that
derive a type, and nothing is left behind them. The symbols may be in the words of any table that
reserves none of the names, so the text says the same type wherever it stands.

* **`ParseResult.Yields`** — a parse succeeds with a given tree, up to spans.
* **`parseType_of_says`** — a text whose tokens say a type is parsed as the type.
* **`exists_symbols_of_parseType`** — the symbols of a text that is parsed as a type. -/

namespace DocGrammar

open RuleState

/-! ## What a parse yields -/

/-- Whether a parse succeeds with a given tree, up to spans. -/
def ParseResult.Yields (result : ParseResult) (tree : Node) : Prop :=
  result.isSuccess = true ∧ ∃ found, result.tree = some found ∧ found.sameAs tree = true

namespace ParseResult.Yields

variable {result : ParseResult} {tree other : Node}

/-- A parse yields at most one tree, up to spans. -/
theorem bare_eq (yields : result.Yields tree) (again : result.Yields other) :
    tree.bare = other.bare := by
  obtain ⟨_, found, here, same⟩ := yields
  obtain ⟨_, found', here', same'⟩ := again
  obtain rfl := Option.some.inj (here.symm.trans here')
  rw [Node.sameAs_iff] at same same'
  rw [← same, same']

/-- What a parse yields does not depend on spans. -/
theorem congr (yields : result.Yields tree) (same : tree.bare = other.bare) :
    result.Yields other := by
  obtain ⟨succeeds, found, here, alike⟩ := yields
  refine ⟨succeeds, found, here, ?_⟩
  rw [Node.sameAs_iff] at alike ⊢
  rw [alike, same]

end ParseResult.Yields

/-! ## Types as tokens -/

variable {keywords : KeywordTable} {symbols : List (Symbol keywords)} {tokens : List Token}
  {last : Token} {node : Node} {nest : Nat} {file text : String} {limit : Int}

/-- What says a type holds no comments. -/
theorem DerivesType.kind_ne_comment (derives : DerivesType symbols node nest)
    (told : Says tokens symbols) : ∀ token ∈ tokens, token.kind ≠ .comment := by
  obtain ⟨form, rfl, _⟩ := derives tokens told
  intro token member isComment
  rcases form.isOfType token member with fixed | feed
  · rw [isComment] at fixed
    exact Bool.noConfusion fixed
  · rw [isComment] at feed
    exact TokenKind.noConfusion feed

/-- **A text whose tokens say a type is parsed as the type**, if the limit admits its nesting. -/
theorem parseType_of_says (positive : 1 ≤ limit)
    (lexed : codeTokens .none file Position.origin text = .ok (tokens ++ [last]))
    (told : Says tokens symbols) (ends : last.kind = .endOfInput)
    (derives : DerivesType symbols node nest) (shallow : (nest : Int) ≤ limit) :
    ∃ found, parseType file limit text = ⟨some found, [], none, []⟩ ∧ found.bare = node := by
  -- no token is hidden from the rule, so it sees those of the type and the end of the input
  have uncommented : ∀ token ∈ tokens ++ [last], token.kind ≠ .comment := by
    refine List.forall_mem_append.mpr ⟨derives.kind_ne_comment told, ?_⟩
    rw [List.forall_mem_singleton, ends]
    exact TokenKind.noConfusion
  obtain ⟨form, rfl, bare, rfl⟩ := derives tokens told
  let whole : WholeTypeForm := ⟨[], form, [], ⟨last, ends⟩⟩
  have enough : form.nest ≤ (⟨limit.toNat, 0⟩ : Nesting).room := by
    simp only [Nesting.room]
    omega
  obtain ⟨final, reads⟩ := TypeExpr.exists_complete_of_form whole rfl enough
  refine ⟨form.node, ?_, bare⟩
  rw [parseType_of_tokens positive lexed, TypeExpr.run_complete (by simp) uncommented]
  rw [show TypeExpr.complete (facing [] (form.tokens ++ [last]) _) = _ from reads]
  rfl

/-- Line ends of which there are none. -/
theorem Feeds.tokens_eq_nil {feeds : Feeds}
    (inner : ∀ token ∈ feeds.tokens, token.kind ≠ .newline) : feeds.tokens = [] := by
  cases feeds with
  | nil => rfl
  | cons feed others => exact absurd feed.property (inner feed.val List.mem_cons_self)

/-- A whole text without line ends is a type before the end of the input. -/
theorem WholeTypeForm.tokens_of_line (whole : WholeTypeForm) {read : List Token}
    (derives : whole.tokens = read ++ [last]) (inner : ∀ token ∈ read, token.kind ≠ .newline) :
    read = whole.type.tokens := by
  rw [WholeTypeForm.tokens, ← List.append_assoc, ← List.append_assoc] at derives
  obtain ⟨rfl, _⟩ := List.append_inj' derives rfl
  rw [List.forall_mem_append, List.forall_mem_append] at inner
  obtain ⟨⟨before, _⟩, behind⟩ := inner
  rw [Feeds.tokens_eq_nil before, Feeds.tokens_eq_nil behind, List.append_nil, List.nil_append]

/-- The tokens of a text without comments that is parsed as a type are those of the type. -/
theorem exists_form_of_parseType (positive : 1 ≤ limit) (isLine : '\n' ∉ text.toList)
    (lexed : codeTokens .none file Position.origin text = .ok tokens)
    (uncommented : ∀ token ∈ tokens, token.kind ≠ .comment)
    (yields : (parseType file limit text).Yields node) :
    ∃ form : TypeForm, ∃ last : Token, tokens = form.tokens ++ [last] ∧
      last.kind = .endOfInput ∧ form.node.bare = node.bare ∧ (form.nest : Int) ≤ limit := by
  obtain ⟨read, last, rfl, isEnd, inner⟩ :=
    exists_last_of_codeTokensFrom KeywordTable.isSeparate_none isLine lexed
  have ends : EndsInput (read ++ [last]) :=
    EndsInput.append ((endsInput_singleton last).mpr isEnd) fun token member =>
      (inner token member).2
  obtain ⟨_, found, here, same⟩ := yields
  rw [parseType_of_tokens positive lexed, TypeExpr.run_complete (by simp) uncommented] at here
  cases outcome : TypeExpr.complete (facing [] (read ++ [last]) ⟨limit.toNat, 0⟩) with
  | error failure final =>
    rw [outcome] at here
    cases here
  | ok value final =>
    rw [outcome] at here
    cases here
    -- the line ends that a whole text may have around its type are none on one line
    obtain ⟨whole, derives, rfl, nest⟩ := TypeExpr.exists_form_of_complete ends outcome
    have isType := whole.tokens_of_line derives fun token member => (inner token member).1
    simp only [Nesting.room] at nest
    refine ⟨whole.type, last, by rw [isType], isEnd, (Node.sameAs_iff _ _).mp same, ?_⟩
    omega

/-! ## Types as symbols -/

/-- Whether no token of a text is a comment. -/
def HasNoComment (file text : String) : Prop :=
  ∀ tokens, codeTokens .none file Position.origin text = .ok tokens →
    ∀ token ∈ tokens, token.kind ≠ .comment

/-- Whether a table reserves no word of a text. -/
def HasFreeWords (table : KeywordTable) (file text : String) : Prop :=
  ∀ tokens, codeTokens .none file Position.origin text = .ok tokens →
    ∀ token ∈ tokens, token.kind = .identifier → token.value ∉ table.map Prod.fst

/-- A word that is no entry of a table is a name. -/
theorem KeywordTable.kindOf_of_not_mem {table : KeywordTable} {word : String}
    (free : word ∉ table.map Prod.fst) : table.kindOf word = .identifier := by
  have absent : table.lookup word = Option.none := by
    rw [List.lookup_eq_none_iff]
    intro entry member
    refine bne_iff_ne.mpr fun same => free ?_
    rw [same]
    exact List.mem_map_of_mem member
  rw [kindOf, absent]
  rfl

/-- **The symbols of a text that is parsed as a type** derive the type, in the words of any table
that reserves none of the names. -/
theorem exists_symbols_of_parseType {table : KeywordTable} (positive : 1 ≤ limit)
    (isLine : '\n' ∉ text.toList) (uncommented : HasNoComment file text)
    (free : HasFreeWords table file text) (yields : (parseType file limit text).Yields node) :
    ∃ (symbols : List (Symbol table)) (nest : Nat), Begins text.toList symbols [] ∧
      DerivesType symbols node.bare nest ∧ (nest : Int) ≤ limit := by
  have ⟨_, _, yieldsTree, _⟩ := yields
  obtain ⟨_, tokens, lexed⟩ := exists_tokens_of_parseType yieldsTree
  have noComment := uncommented tokens lexed
  obtain ⟨form, last, rfl, isEnd, bare, shallow⟩ :=
    exists_form_of_parseType positive isLine lexed noComment yields
  have feeds : ∀ token ∈ form.tokens, token.kind ≠ .newline := by
    obtain ⟨read, finish, same, _, inner⟩ :=
      exists_last_of_codeTokensFrom KeywordTable.isSeparate_none isLine lexed
    obtain ⟨rfl, _⟩ := List.append_inj' same rfl
    exact fun token member => (inner token member).1
  have kinds : ∀ token ∈ form.tokens ++ [last], token.kind.isFixed = true ∨
      token.kind = .comment ∨ token.kind = .endOfInput := by
    refine List.forall_mem_append.mpr ⟨fun token member => ?_, ?_⟩
    · exact .inl ((form.isOfType token member).resolve_right (feeds token member))
    · exact List.forall_mem_singleton.mpr (.inr (.inr isEnd))
  obtain ⟨symbols, rest, begins, outcome⟩ :=
    exists_begins table KeywordTable.isSeparate_none isLine lexed kinds fun token member named =>
      KeywordTable.kindOf_of_not_mem (free _ lexed token member named)
  rcases outcome with ⟨rfl, read, finish, same, told⟩ | ⟨_, token, member, isComment⟩
  · -- the symbols are in the words of the other table, and what they say is still the type
    obtain ⟨rfl, _⟩ := List.append_inj' same rfl
    have derives := form.derivesType told
    rw [bare] at derives
    exact ⟨symbols, form.nest, begins, derives, shallow⟩
  · exact absurd isComment (noComment token member)

/-- A text that begins with symbols that derive a type, and holds nothing else, is parsed as the
type. -/
theorem Begins.parseType_yields {symbols : List (Symbol .none)} (positive : 1 ≤ limit)
    (begins : Begins text.toList symbols []) (derives : DerivesType symbols node nest)
    (shallow : (nest : Int) ≤ limit) : (parseType file limit text).Yields node := by
  obtain ⟨tokens, last, lexed, told, ends⟩ := begins.exists_codeTokens file Position.origin
  obtain ⟨found, parsed, bare⟩ := parseType_of_says positive lexed told ends derives shallow
  rw [parsed]
  exact ⟨rfl, found, rfl, Node.sameAs_of_bare bare⟩

/-- A text that leaves a comment behind its symbols has a comment. -/
theorem Begins.not_hasNoComment {symbols : List (Symbol .none)} {others : List Char}
    (isLine : '\n' ∉ text.toList) (begins : Begins text.toList symbols ('/' :: '/' :: others)) :
    ¬HasNoComment file text := by
  intro uncommented
  have isLine' : '\n' ∉ others := by
    intro member
    obtain ⟨front, whole⟩ := begins.exists_append
    rw [whole] at isLine
    exact isLine (List.mem_append_right _ (List.mem_cons_of_mem _ (List.mem_cons_of_mem _ member)))
  obtain ⟨tokens, later, _, same⟩ := begins.exists_tokens file (.start Position.origin)
  obtain ⟨comment, last, isComment, lexed⟩ := exists_comment .none file later isLine'
  rw [lexed] at same
  refine uncommented _ same comment ?_ isComment
  exact List.mem_append_right _ List.mem_cons_self

/-- A text whose tokens, in the words of some table, are those of a type but for comments is parsed
as the type if it has no comments. -/
theorem TypeForm.parseType_yields (form : TypeForm) (separate : keywords.isSeparate = true)
    (positive : 1 ≤ limit) (isLine : '\n' ∉ text.toList) (uncommented : HasNoComment file text)
    {state : CodeState}
    (lexed : codeTokensFrom keywords file state text.toList = .ok (tokens ++ [last]))
    (seen : form.tokens = WalkM.seen tokens) (shallow : (form.nest : Int) ≤ limit) :
    (parseType file limit text).Yields form.node.bare := by
  obtain ⟨read, finish, same, isEnd, inner⟩ := exists_last_of_codeTokensFrom separate isLine lexed
  obtain ⟨rfl, singletons⟩ := List.append_inj' same rfl
  obtain rfl := List.singleton_inj.mp singletons
  have kinds : ∀ token ∈ tokens ++ [last], token.kind.isFixed = true ∨ token.kind = .comment ∨
      token.kind = .endOfInput := by
    refine List.forall_mem_append.mpr ⟨fun token member => ?_, ?_⟩
    · by_cases isComment : token.kind = .comment
      · exact .inr (.inl isComment)
      · have held : token ∈ form.tokens := by
          rw [seen]
          exact List.mem_filter.mpr ⟨member, decide_eq_true isComment⟩
        exact .inl ((form.isOfType token held).resolve_right (inner token member).1)
    · exact List.forall_mem_singleton.mpr (.inr (.inr isEnd))
  obtain ⟨symbols, rest, begins, outcome⟩ :=
    exists_begins .none separate isLine lexed kinds fun _ _ _ => rfl
  rcases outcome with ⟨rfl, read, finish, same, told⟩ | ⟨⟨others, rfl⟩, _⟩
  · -- nothing is left behind the symbols, so no token was a comment and all of them were seen
    obtain ⟨rfl, _⟩ := List.append_inj' same rfl
    have whole : form.tokens = tokens := by
      rw [seen]
      exact WalkM.seen_eq_self (told.kind_ne (by decide) rfl (by decide))
    rw [← whole] at told
    exact begins.parseType_yields positive (form.derivesType told) shallow
  · exact absurd uncommented (begins.not_hasNoComment isLine)

end DocGrammar
