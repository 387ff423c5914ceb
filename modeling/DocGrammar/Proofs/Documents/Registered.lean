import DocGrammar.Proofs.Documents.Directives

/-! # Registered grammars and directives

Registrations are made one by one, and one that is refused changes nothing. So a name that is
registered keeps the first grammar registered under it, and a directive with the name selects this
grammar. The check of a name lets a final line feed pass, which no directive can spell: a grammar
under such a name is never selected.

* **`Registry.find?_registerAll`** — the grammar of a name behind some registrations.
* **`isGrammarName_iff`** — the names that may be registered.
* **`Registry.selects_registered`** — which registered names a directive selects, and with what.
* **`Registry.not_selects_feed`** — a registered name that no directive selects. -/

namespace DocGrammar

/-! ## Registrations -/

namespace Registry

/-- The registry behind a registration: as it was, if that is refused. -/
def attempt (registry : Registry) (grammar : Grammar) : Registry :=
  match registry.register grammar with
  | .ok extended => extended
  | .error _ => registry

/-- The registry behind some registrations. -/
def registerAll (registry : Registry) (calls : List Grammar) : Registry :=
  calls.foldl attempt registry

/-- The registry of this library comes of two registrations. -/
example : builtIn = empty.registerAll [Grammar.specs, Grammar.pseudoKernel] := rfl

/-- A name is listed if and only if it has a grammar. -/
theorem mem_names_iff {registry : Registry} {name : String} :
    name ∈ registry.names ↔ registry.contains name = true := by
  rw [names, contains, find?, List.find?_isSome]
  simp only [List.mem_map, sorted, List.mem_mergeSort, beq_iff_eq]

/-- A registration adds its grammar unless the name is no grammar name or taken. -/
theorem register_of_free {registry : Registry} {grammar : Grammar}
    (valid : isGrammarName grammar.name = true) (free : registry.contains grammar.name = false) :
    registry.register grammar = .ok ⟨registry.grammars ++ [grammar]⟩ := by
  rw [register, valid, free]
  rfl

/-- A registration gives a grammar to its own name, if that is valid and had none. -/
theorem find?_attempt (registry : Registry) (grammar : Grammar) (name : String) :
    (registry.attempt grammar).find? name = (registry.find? name).or
      (if isGrammarName name && grammar.name == name then some grammar else none) := by
  cases valid : isGrammarName grammar.name with
  | false =>
    -- an invalid name is not added, and no valid one is equal to it
    have refused : registry.attempt grammar = registry := by
      rw [attempt, register, valid]
      rfl
    have other : (isGrammarName name && grammar.name == name) = false := by
      rw [Bool.and_eq_false_iff, beq_eq_false_iff_ne]
      exact or_iff_not_imp_right.mpr fun same => Classical.not_not.mp same ▸ valid
    rw [refused, other, if_neg Bool.false_ne_true, Option.or_none]
  | true =>
    cases taken : registry.contains grammar.name with
    | true =>
      have refused : registry.attempt grammar = registry := by
        rw [attempt, register, valid, taken]
        rfl
      rw [refused]
      split
      · next added =>
        rw [Bool.and_eq_true, beq_iff_eq] at added
        rw [contains, added.2] at taken
        rw [Option.or_of_isSome taken]
      · rw [Option.or_none]
    | false =>
      rw [attempt, register_of_free valid taken]
      show (registry.grammars ++ [grammar]).find? _ = _
      rw [List.find?_append]
      show (registry.find? name).or _ = _
      by_cases same : grammar.name = name
      · subst same
        simp [valid]
      · simp [same]

/-- A name keeps the grammar that it has, and else gets the first one registered under it. -/
theorem find?_registerAll (registry : Registry) (calls : List Grammar) (name : String) :
    (registry.registerAll calls).find? name = (registry.find? name).or
      (if isGrammarName name then calls.find? (fun grammar => grammar.name == name) else none) := by
  induction calls generalizing registry with
  | nil => cases isGrammarName name <;> exact (Option.or_none).symm
  | cons call calls ih =>
    show ((registry.attempt call).registerAll calls).find? name = _
    rw [ih, find?_attempt, Option.or_assoc]
    congr 1
    cases valid : isGrammarName name with
    | false => rfl
    | true =>
      cases same : call.name == name with
      | false => simp [same]
      | true => simp [same]

/-- What is listed behind some registrations has a valid name and the first grammar registered
under it. -/
theorem exists_of_mem_names {calls : List Grammar} {name : String}
    (listed : name ∈ (empty.registerAll calls).names) :
    isGrammarName name = true ∧ ∃ grammar,
      calls.find? (fun grammar => grammar.name == name) = some grammar ∧ grammar.name = name ∧
      (empty.registerAll calls).find? name = some grammar := by
  have found := mem_names_iff.mp listed
  have lookup : (empty.registerAll calls).find? name =
      if isGrammarName name then calls.find? (fun grammar => grammar.name == name) else none :=
    find?_registerAll empty calls name
  rw [contains] at found
  obtain ⟨grammar, has⟩ := Option.isSome_iff_exists.mp found
  have source := lookup.symm.trans has
  split at source
  · next valid =>
    have named := List.find?_some source
    exact ⟨valid, grammar, source, eq_of_beq named, has⟩
  · cases source

end Registry

/-! ## The names that are registered -/

/-- A text is at the end of its line if nothing or a single line feed is left. -/
theorem isAtLineEnd_iff {rest : List Char} :
    isAtLineEnd rest = true ↔ rest = [] ∨ rest = ['\n'] := by
  simp [isAtLineEnd]

/-- The first character of a name may stand anywhere in it. -/
theorem isGrammarNameChar_of_start {char : Char} (start : isGrammarNameStart char = true) :
    isGrammarNameChar char = true := by
  rw [isGrammarNameChar, start]
  rfl

/-- The names that may be registered are those that a directive can hold, up to a final line
feed. -/
theorem isGrammarName_iff {name : String} :
    isGrammarName name = true ↔ ∃ stem tail, IsDirectiveName stem ∧ isAtLineEnd tail = true ∧
      name.toList = stem ++ tail := by
  constructor
  · intro valid
    unfold isGrammarName at valid
    split at valid
    · cases valid
    · -- the stem goes up to the first character that a name does not go on with
      next first rest shape =>
      rw [Bool.and_eq_true] at valid
      refine ⟨first :: rest.takeWhile isGrammarNameChar, rest.dropWhile isGrammarNameChar,
        ⟨valid.1, ?_⟩, valid.2, ?_⟩
      · exact List.forall_mem_cons.mpr
          ⟨isGrammarNameChar_of_start valid.1, fun char => List.mem_takeWhile_imp⟩
      · rw [shape, List.cons_append, List.takeWhile_append_dropWhile]
  · rintro ⟨stem, tail, isName, ends, shape⟩
    cases stem with
    | nil => exact absurd isName.starts Bool.false_ne_true
    | cons first rest =>
      have inner : ∀ char ∈ rest, isGrammarNameChar char = true := fun char member =>
        isName.continues char (List.mem_cons_of_mem first member)
      have behind : (rest ++ tail).dropWhile isGrammarNameChar = tail := by
        rw [List.dropWhile_append_of_pos inner]
        rcases isAtLineEnd_iff.mp ends with rfl | rfl <;> rfl
      have start : isGrammarNameStart first = true := isName.starts
      unfold isGrammarName
      rw [shape, List.cons_append]
      simp only [start, behind, ends, Bool.and_self]

/-- The codes of the characters in a name lie above the space and below the delete character. -/
theorem toNat_of_isGrammarNameChar {char : Char} (inName : isGrammarNameChar char = true) :
    45 ≤ char.toNat ∧ char.toNat ≤ 122 := by
  simp only [isGrammarNameChar, isGrammarNameStart, Bool.or_eq_true] at inName
  rcases inName with (letter | digit) | hyphen
  · have bounds := toNat_of_within letter
    exact ⟨le_trans (by decide) bounds.1, bounds.2⟩
  · have bounds := toNat_of_within digit
    exact ⟨le_trans (by decide) bounds.1, le_trans bounds.2 (by decide)⟩
  · rw [of_decide_eq_true hyphen]
    decide

/-! ## Texts of directives -/

/-- The text of a directive with a name. -/
def directiveText (name : String) : String := "#!/grammars/" ++ name ++ " parse"

theorem toList_directiveText (name : String) :
    (directiveText name).toList = directiveLine name.toList := by
  rw [directiveText, String.toList_append, String.toList_append, List.append_assoc]
  rfl

/-- Neither control characters nor the delete character stand in a directive. -/
theorem toNat_of_mem_directiveLine {name : List Char}
    (inName : ∀ char ∈ name, isGrammarNameChar char = true) {char : Char}
    (member : char ∈ directiveLine name) : 32 ≤ char.toNat ∧ char.toNat ≤ 122 := by
  have all : (directiveOpening ++ directiveClosing).all
      (fun char => 32 ≤ char.toNat && char.toNat ≤ 122) = true := by decide
  have fixed : ∀ char ∈ directiveOpening ++ directiveClosing,
      32 ≤ char.toNat ∧ char.toNat ≤ 122 := by simpa using List.all_eq_true.mp all
  rw [directiveLine, List.mem_append, List.mem_append] at member
  rcases member with opening | spelled | closing
  · exact fixed char (List.mem_append_left _ opening)
  · have bounds := toNat_of_isGrammarNameChar (inName char spelled)
    omega
  · exact fixed char (List.mem_append_right _ closing)

/-- A text whose rows hold no characters but those of directives is read. -/
theorem exists_documentTokens_of_toNat {text : String}
    (bounds : ∀ row ∈ feedLines text.toList, ∀ char ∈ row, 32 ≤ char.toNat ∧ char.toNat ≤ 122)
    (file : String) : ∃ tokens, documentTokens file text = .ok tokens := by
  have clean : ∀ row ∈ feedLines text.toList, isCleanText (dropReturn row) = true := by
    intro row inText
    refine (isCleanText_iff _).mpr fun char member => ?_
    have inBounds := bounds row inText char ((dropReturn_isPrefix row).mem member)
    exact isForbidden_of_toNat inBounds.1 (by omega)
  obtain ⟨behind, reads⟩ := exists_tokensOfLines clean file none 1
  exact ⟨_, documentTokens_of_tokensOfLines reads⟩

section

variable {name : String} {stem : List Char}

/-- The text of a directive is a single line. -/
theorem feedLines_directiveText (isName : IsDirectiveName name.toList) :
    feedLines (directiveText name).toList = [directiveLine name.toList] := by
  rw [toList_directiveText]
  refine feedLines_of_noFeed fun member => ?_
  exact absurd (toNat_of_mem_directiveLine isName.continues member).1 (by decide)

/-- The text of a directive is read. -/
theorem exists_documentTokens_directiveText (isName : IsDirectiveName name.toList)
    (file : String) : ∃ tokens, documentTokens file (directiveText name) = .ok tokens := by
  refine exists_documentTokens_of_toNat (fun row inText char member => ?_) file
  rw [feedLines_directiveText isName, List.mem_singleton] at inText
  exact toNat_of_mem_directiveLine isName.continues (inText ▸ member)

/-- The grammar that the text of a directive names is detected. -/
theorem detectGrammar_directiveText (isName : IsDirectiveName name.toList) :
    detectGrammar (directiveText name) = some name := by
  have kept : dropReturn (directiveLine name.toList) = directiveLine name.toList := by
    rcases dropReturn_cases (directiveLine name.toList) with same | returned
    · exact same.symm
    · have member : '\r' ∈ directiveLine name.toList := by
        rw [returned]
        exact List.mem_append_right _ List.mem_cons_self
      exact absurd (toNat_of_mem_directiveLine isName.continues member).1 (by decide)
  rw [detectGrammar, feedLines_directiveText isName, List.headD_cons, kept]
  exact grammarNameOf?_eq_some_iff.mpr ⟨isName, [], rfl, (List.append_nil _).symm⟩

/-- A line feed at the end of the name cuts the text of a directive. -/
theorem feedLines_directiveText_of_feed (isName : IsDirectiveName stem)
    (feeds : name.toList = stem ++ ['\n']) :
    feedLines (directiveText name).toList = [directiveOpening ++ stem, directiveClosing] := by
  have noFeed : '\n' ∉ directiveOpening ++ stem := by
    intro member
    have inLine : '\n' ∈ directiveLine stem := by
      rw [directiveLine, ← List.append_assoc]
      exact List.mem_append_left _ member
    exact absurd (toNat_of_mem_directiveLine isName.continues inLine).1 (by decide)
  have cut : directiveLine name.toList =
      (directiveOpening ++ stem) ++ '\n' :: directiveClosing := by
    rw [directiveLine, feeds]
    simp only [List.append_assoc, List.singleton_append]
  rw [toList_directiveText, cut, feedLines_append noFeed]
  rfl

/-- A text that is cut within its directive is read, too. -/
theorem exists_documentTokens_directiveText_of_feed (isName : IsDirectiveName stem)
    (feeds : name.toList = stem ++ ['\n']) (file : String) :
    ∃ tokens, documentTokens file (directiveText name) = .ok tokens := by
  refine exists_documentTokens_of_toNat (fun row inText char member => ?_) file
  refine toNat_of_mem_directiveLine isName.continues ?_
  rw [feedLines_directiveText_of_feed isName feeds] at inText
  simp only [List.mem_cons, List.not_mem_nil, or_false] at inText
  rw [directiveLine, ← List.append_assoc]
  rcases inText with rfl | rfl
  · exact List.mem_append_left _ member
  · exact List.mem_append_right _ member

/-- Nothing is detected in front of a line feed: what ends a directive stands behind it. -/
theorem detectGrammar_directiveText_of_feed (isName : IsDirectiveName stem)
    (feeds : name.toList = stem ++ ['\n']) : detectGrammar (directiveText name) = none := by
  rw [detectGrammar, feedLines_directiveText_of_feed isName feeds, List.headD_cons,
    Option.eq_none_iff_forall_not_mem]
  intro selected names
  obtain ⟨_, tail, _, line⟩ := grammarNameOf?_eq_some_iff.mp names
  have closing : ' ' ∈ directiveClosing := by decide
  have space : ' ' ∈ dropReturn (directiveOpening ++ stem) := by
    rw [line, directiveLine]
    exact List.mem_append_left _ (List.mem_append_right _ (List.mem_append_right _ closing))
  rcases List.mem_append.mp ((dropReturn_isPrefix _).mem space) with opening | spelled
  · exact absurd opening (by decide)
  · exact absurd (toNat_of_isGrammarNameChar (isName.continues ' ' spelled)).1 (by decide)

end

/-! ## Which grammars are selected -/

/-- A name that may be registered and does not end with a line feed can stand in a directive. -/
theorem isDirectiveName_of_isGrammarName {name : String} (valid : isGrammarName name = true)
    (noFeed : name.toList.getLast? ≠ some '\n') : IsDirectiveName name.toList := by
  obtain ⟨stem, tail, isName, ends, shape⟩ := isGrammarName_iff.mp valid
  rcases isAtLineEnd_iff.mp ends with rfl | rfl
  · rwa [shape, List.append_nil]
  · exact absurd (by rw [shape, List.getLast?_concat]) noFeed

/-- A name that may be registered and ends with a line feed holds a shorter one before it. -/
theorem exists_stem_of_isGrammarName {name : String} (valid : isGrammarName name = true)
    (feeds : name.toList.getLast? = some '\n') :
    ∃ stem, IsDirectiveName stem ∧ name.toList = stem ++ ['\n'] := by
  obtain ⟨stem, tail, isName, ends, shape⟩ := isGrammarName_iff.mp valid
  rcases isAtLineEnd_iff.mp ends with rfl | rfl
  · rw [shape, List.append_nil] at feeds
    -- the stem ends with a character of a name
    have inName := isName.continues '\n' (List.mem_of_getLast? feeds)
    exact absurd inName (by decide)
  · exact ⟨stem, isName, shape⟩

namespace Registry

/-- A name that may be registered is listed behind registrations of its own only. -/
theorem mem_names_registerAll {calls : List Grammar} {grammar : Grammar}
    (valid : isGrammarName grammar.name = true) (called : grammar ∈ calls) :
    grammar.name ∈ (empty.registerAll calls).names := by
  have found : (empty.registerAll calls).find? grammar.name =
      if isGrammarName grammar.name then calls.find? (fun other => other.name == grammar.name)
      else none := find?_registerAll empty calls grammar.name
  rw [mem_names_iff, contains, found, if_pos valid, List.find?_isSome]
  exact ⟨grammar, called, beq_self_eq_true _⟩

/-- After any registrations, the text of a directive with a listed name that does not end with a
line feed is read with the first grammar registered under the name. If the name does end with a
line feed, the text names no grammar and the parse is refused. Every name that a line can select and
that is not listed may be registered. -/
theorem selects_registered (calls : List Grammar) (name file : String) (limit : Int)
    (positive : 1 ≤ limit) (defaultGrammar : Option String) :
    let registry := empty.registerAll calls
    let parse := parseDocument registry file limit defaultGrammar (directiveText name)
    (name ∈ registry.names → name.toList.getLast? ≠ some '\n' →
      detectGrammar (directiveText name) = some name ∧
      ∃ grammar source session,
        calls.find? (fun grammar => grammar.name == name) = some grammar ∧
        readDocument file (directiveText name) = .ok source ∧
        Session.start file limit = .ok session ∧
        parse = .ofOutcome (some name)
          (grammar.document source (session.log (.parsing file name)))) ∧
    (name ∈ registry.names → name.toList.getLast? = some '\n' →
      detectGrammar (directiveText name) = none ∧ parse.tree = none ∧ parse.grammar = none ∧
      ∃ diagnostic, parse.diagnostics = [diagnostic] ∧ diagnostic.kind = .selection) ∧
    (∀ line selected, grammarNameOf? line = some selected → selected ∉ registry.names →
      ∀ rule description, registry.register ⟨selected, rule, description⟩ =
        .ok ⟨registry.grammars ++ [⟨selected, rule, description⟩]⟩) := by
  intro registry parse
  refine ⟨fun listed noFeed => ?_, fun listed feeds => ?_, fun line selected names free => ?_⟩
  · -- the name is the rest of its line, so it is detected and looked up
    obtain ⟨valid, grammar, first, named, found⟩ := exists_of_mem_names listed
    have isName := isDirectiveName_of_isGrammarName valid noFeed
    have detected := detectGrammar_directiveText isName
    obtain ⟨tokens, reads⟩ := exists_documentTokens_directiveText isName file
    obtain ⟨source, read, directive⟩ := readDocument_of_detectGrammar reads detected
    refine ⟨detected, grammar, source, _, first, read, Session.start_of_positive file positive, ?_⟩
    have selects : selectGrammar registry source (some name) = .ok grammar :=
      selectGrammar_of_find? found
    have parsed : parse = _ := parseDocument_of_read registry defaultGrammar positive read
    rw [parsed, directive, Option.map_some, Option.some_or, parseSections_of_selected selects,
      named]
  · -- the line feed cuts the line behind the stem, which names nothing that a directive may name
    obtain ⟨valid, _⟩ := exists_of_mem_names listed
    obtain ⟨stem, isName, shape⟩ := exists_stem_of_isGrammarName valid feeds
    have undetected := detectGrammar_directiveText_of_feed isName shape
    have opens : OpensLikeDirective (directiveText name) := by
      rw [OpensLikeDirective, firstLine, feedLines_directiveText_of_feed isName shape]
      exact ⟨"/grammars/".toList ++ stem, rfl⟩
    obtain ⟨tokens, reads⟩ := exists_documentTokens_directiveText_of_feed isName shape file
    have refused : parse = _ := parseDocument_of_refused registry defaultGrammar positive
      (readDocument_of_malformed reads opens undetected)
    rw [refused]
    exact ⟨undetected, rfl, rfl, _, rfl, rfl⟩
  · have isName := (grammarNameOf?_eq_some_iff.mp names).1
    have valid : isGrammarName selected = true :=
      isGrammarName_iff.mpr ⟨selected.toList, [], isName, rfl, (List.append_nil _).symm⟩
    have vacant : registry.contains selected = false := by
      rwa [mem_names_iff, Bool.not_eq_true] at free
    exact fun rule description => register_of_free valid vacant

/-- A second grammar under a name does not take the place of the first. -/
theorem selects_registered_twice : (1 : Int) ≤ 3 ∧
    "specs" ∈ (empty.registerAll [Grammar.specs, ⟨"specs", Pseudo.document, ""⟩]).names ∧
    "specs".toList.getLast? ≠ some '\n' ∧
    detectGrammar (directiveText "specs") = some "specs" ∧
    ∃ source session, parseDocument (empty.registerAll
        [Grammar.specs, ⟨"specs", Pseudo.document, ""⟩]) "t" 3 none (directiveText "specs") =
      .ofOutcome (some "specs") (Specs.document source session) := by
  have positive : (1 : Int) ≤ 3 := by decide
  have valid : isGrammarName Grammar.specs.name = true := by cbv
  have listed : "specs" ∈
      (empty.registerAll [Grammar.specs, ⟨"specs", Pseudo.document, ""⟩]).names :=
    mem_names_registerAll valid List.mem_cons_self
  have noFeed : "specs".toList.getLast? ≠ some '\n' := by decide
  obtain ⟨detected, grammar, source, session, first, _, _, parsed⟩ :=
    (selects_registered [Grammar.specs, ⟨"specs", Pseudo.document, ""⟩] "specs" "t" 3 positive
      none).1 listed noFeed
  cases first
  exact ⟨positive, listed, noFeed, detected, source, _, parsed⟩

/-- A name with a line feed at its end may be registered, and no text of a directive selects it. -/
theorem not_selects_feed :
    "a\n" ∈ (empty.registerAll [⟨"a\n", Specs.document, ""⟩]).names ∧
      detectGrammar (directiveText "a\n") = none := by
  have valid : isGrammarName "a\n" = true := by cbv
  have listed : "a\n" ∈ (empty.registerAll [⟨"a\n", Specs.document, ""⟩]).names :=
    mem_names_registerAll valid List.mem_cons_self
  have isName : IsDirectiveName ['a'] := ⟨rfl, List.forall_mem_singleton.mpr rfl⟩
  have feeds : "a\n".toList = ['a'] ++ ['\n'] := by cbv
  exact ⟨listed, detectGrammar_directiveText_of_feed isName feeds⟩

end Registry

end DocGrammar
