import Mathlib
import DocGrammar.Proofs.Fixture.Cases
import DocGrammar.Proofs.Trees.Rendered

/-! # Fixture files are read back

A case is written as a rule, its name, its attributes, another rule, its input, the divider and the
rendered tree, with blank lines around the input and the tree. No line of a part is taken for the
start of another part: attributes start with a colon, lines of trees with a space or a parenthesis,
and inputs must not have a line that is a divider or a header. So the cases are read back one behind
the other, each with the number of its first line.

* **`CaseStyle`** — what the attributes of a case leave open in writing.
* **`FixtureCase.written`**, **`writtenCases`** — the text of a case and of a file.
* **`FixtureCase.IsWritable`** — the cases that can be written.
* **`readFixture_writtenCases`** — a file of such cases is read back. -/

namespace DocGrammar

/-! ## Writing -/

/-- How a case is written. -/
structure CaseStyle where
  /-- The rule above the name. -/
  above : String
  /-- The rule below the attributes. -/
  below : String
  /-- Whether an empty value of an attribute is left out with its parentheses. -/
  isBare : Bool
  /-- Whether the type stands before the grammar. -/
  typeFirst : Bool
  /-- The number of blank lines above the input. -/
  blanks : Nat
  /-- What stands above is a rule. -/
  isRule_above : isRule above.toList = true
  /-- What stands below is a rule. -/
  isRule_below : isRule below.toList = true
  /-- What stands above is a line. -/
  isLine_above : ∀ char ∈ above.toList, isLineBreak char = false
  /-- What stands below is a line. -/
  isLine_below : ∀ char ∈ below.toList, isLineBreak char = false

/-- The line of an attribute. -/
def CaseStyle.attributeLine (style : CaseStyle) (name value : String) : String :=
  if style.isBare && value.isEmpty then ":" ++ name else ":" ++ name ++ "(" ++ value ++ ")"

/-- The lines of some attributes. -/
def CaseStyle.attributeLines (style : CaseStyle) (attributes : CaseAttributes) : List String :=
  let grammar := attributes.grammar.toList.map (style.attributeLine "grammar")
  let type := attributes.type.toList.map (style.attributeLine "type")
  if style.typeFirst then type ++ grammar else grammar ++ type

namespace FixtureCase

/-- The parts of a written case, each of which ends with a line feed. -/
def parts (case : FixtureCase) (style : CaseStyle) : List String :=
  style.above :: case.name :: (style.attributeLines case.attributes ++
    style.below :: (List.replicate style.blanks "" ++
      [case.input, "---", "", case.expected.pretty Outline.standardIndent, ""]))

/-- The text of a case. -/
def written (case : FixtureCase) (style : CaseStyle) : String :=
  String.join ((case.parts style).map (· ++ "\n"))

/-- Whether a value of an attribute can be written. -/
structure IsValue (value : String) : Prop where
  /-- It is trimmed. -/
  trimmed : trim value.toList = value.toList
  /-- It does not close the parentheses. -/
  inside : ')' ∉ value.toList
  /-- It stands on one line. -/
  isLine : ∀ char ∈ value.toList, isLineBreak char = false

/-- Whether a case can be written. -/
structure IsWritable (case : FixtureCase) : Prop where
  /-- There is a name. -/
  named : case.name ≠ ""
  /-- The name is trimmed. -/
  trimmed : trim case.name.toList = case.name.toList
  /-- The name stands on one line. -/
  isLine : ∀ char ∈ case.name.toList, isLineBreak char = false
  /-- The grammar can be written. -/
  grammar : ∀ value ∈ case.attributes.grammar, IsValue value
  /-- The type can be written. -/
  type : ∀ value ∈ case.attributes.type, IsValue value
  /-- The input does not start with a line feed. -/
  starts : case.input.toList.head? ≠ some '\n'
  /-- The input does not end with a line feed. -/
  ends : case.input.toList.getLast? ≠ some '\n'
  /-- The input has no other line breaks than line feeds. -/
  feeds : ∀ char ∈ case.input.toList, isLineBreak char = true → char = '\n'
  /-- No line of the input is a divider or a header. -/
  plain : ∀ line ∈ feedLines case.input.toList, isDivider line = false ∧ isHeaderLine line = false
  /-- The tree stands under no field name. -/
  root : case.expected.field = none
  /-- The tree can be written. -/
  expected : case.expected.IsWritable
  /-- The texts of the tree have no other line breaks than line feeds. -/
  onlyFeeds : case.expected.Everywhere Outline.HasOnlyFeeds

end FixtureCase

/-- The text of some cases. -/
def writtenCases (cases : List (FixtureCase × CaseStyle)) : String :=
  String.join (cases.map fun entry => entry.1.written entry.2)

/-- Cases with the numbers of their first lines, where the first one stands at line `number`. -/
def placedCases (number : Nat) : List (FixtureCase × CaseStyle) → List FixtureCase
  | [] => []
  | (case, style) :: others =>
    { case with line := number } ::
      placedCases (number + (textLines (case.written style)).length) others

/-- Characters among which no line break is found stand on one line. -/
theorem isLine_of_all {text : List Char} (plain : text.all (!isLineBreak ·) = true) :
    ∀ char ∈ text, isLineBreak char = false :=
  fun char member => (Bool.not_eq_true' _).mp (List.all_eq_true.mp plain char member)

/-- Characters among which only line feeds are found as line breaks have no others. -/
theorem feeds_of_all {text : List Char}
    (plain : text.all (fun char => !isLineBreak char || char == '\n') = true) :
    ∀ char ∈ text, isLineBreak char = true → char = '\n' := by
  intro char member breaks
  have own := List.all_eq_true.mp plain char member
  rw [breaks, Bool.not_true, Bool.false_or] at own
  exact beq_iff_eq.mp own

/-! ## Trimming -/

section

variable {drops : Char → Bool}

/-- What is dropped around a text leaves the text. -/
theorem trimWhile_around {before text after : List Char}
    (dropped : ∀ char ∈ before, drops char = true) (dropped' : ∀ char ∈ after, drops char = true)
    (starts : ∀ char ∈ text.head?, drops char = false)
    (ends : ∀ char ∈ text.getLast?, drops char = false) :
    trimWhile drops (before ++ (text ++ after)) = text := by
  rw [trimWhile, List.dropWhile_append_of_pos dropped]
  cases text with
  | nil =>
    -- nothing stops the first drop, which then takes what stands behind as well
    rw [List.nil_append, List.dropWhile_eq_nil_iff.mpr dropped', dropTailWhile_nil]
  | cons first others =>
    rw [List.cons_append, List.dropWhile_cons_of_neg (by
      rw [starts first rfl]; exact Bool.false_ne_true), ← List.cons_append,
      dropTailWhile_append_dropped dropped']
    have last := List.dropLast_append_getLast (List.cons_ne_nil first others)
    rw [← last]
    exact dropTailWhile_of_last _ (ends _ (List.getLast?_eq_getLast_of_ne_nil _))

end

/-! ## Lines that are no headers -/

/-- A line that does not start with an equals sign is neither a rule nor a header. -/
theorem not_isHeaderLine_of_head {line : List Char} (starts : line.head? ≠ some '=') :
    isRule line = false ∧ isHeaderLine line = false := by
  have none : line.takeWhile (· = '=') = [] := by
    cases line with
    | nil => rfl
    | cons char rest =>
      rw [List.takeWhile_cons_of_neg (by simpa using starts)]
  have rule : isRule line = false := by simp [isRule, none]
  refine ⟨rule, ?_⟩
  simp [isHeaderLine, rule, inlineName?, none]

/-- White space has no closing rule in it. -/
theorem nameBeforeRule?_of_blank {text : List Char} (blank : ∀ char ∈ text, isBlank char = true) :
    nameBeforeRule? text = none := by
  induction text with
  | nil => rfl
  | cons char rest ih =>
    have below := (List.forall_mem_cons.mp blank).2
    have closing : isClosingRule rest = false := by
      rw [isClosingRule, List.dropWhile_eq_nil_iff.mpr below]
      exact Bool.and_false _
    rw [nameBeforeRule?, closing, ih below]
    rfl

/-- A rule is no header of a single line. -/
theorem inlineName?_of_isRule {line : List Char} (rule : isRule line = true) :
    inlineName? line = none := by
  have blank := List.all_eq_true.mp (Bool.and_eq_true_iff.mp rule).2
  -- wherever a name might start, only white space follows
  have absent : ∀ spared, nameBeforeRule? ((line.dropWhile (· = '=')).drop spared) = none :=
    fun spared => nameBeforeRule?_of_blank fun char member =>
      blank char (List.mem_of_mem_drop member)
  unfold inlineName?
  dsimp only
  split
  · rfl
  · rw [List.findSome?_eq_none_iff.mpr fun spared _ => absent _]
    rfl

/-! ## Attributes -/

namespace CaseStyle

variable {style : CaseStyle} {value : String}

/-- The characters of the line of an attribute. -/
theorem exists_toList_attributeLine (style : CaseStyle) (name value : String) : ∃ behind,
    (style.attributeLine name value).toList = ':' :: (name.toList ++ behind) ∧
      (behind = [] ∧ value = "" ∨ behind = '(' :: (value.toList ++ [')'])) := by
  unfold attributeLine
  split
  · next bare =>
    exact ⟨[], by simp, .inl ⟨rfl, String.isEmpty_iff.mp (Bool.and_eq_true_iff.mp bare).2⟩⟩
  · exact ⟨'(' :: (value.toList ++ [')']), by simp, .inr rfl⟩

/-- Whether a text can be the name of an attribute. -/
structure IsAttributeName (name : String) : Prop where
  /-- It is not empty. -/
  nonempty : name.toList ≠ []
  /-- All its characters may stand in one. -/
  continues : ∀ char ∈ name.toList, isAttributeChar char = true

theorem isAttributeName_grammar : IsAttributeName "grammar" :=
  ⟨by decide, List.all_eq_true.mp (by decide)⟩

theorem isAttributeName_type : IsAttributeName "type" :=
  ⟨by decide, List.all_eq_true.mp (by decide)⟩

theorem isNameStart_of_isAttributeChar {char : Char} (continues : isAttributeChar char = true) :
    OutlinePiece.isNameStart char = true := by
  simp only [isAttributeChar, OutlinePiece.isNameStart, isAsciiLetter, Bool.or_eq_true]
    at continues ⊢
  exact continues.imp_left .inl

variable {name : String}

/-- An attribute stands on one line. -/
theorem isLine_attributeLine (named : IsAttributeName name) (isValue : FixtureCase.IsValue value) :
    ∀ char ∈ (style.attributeLine name value).toList, isLineBreak char = false := by
  have own : ∀ char ∈ name.toList, isLineBreak char = false := fun char member =>
    isLineBreak_of_isNameChar (isNameChar_of_isNameStart
      (isNameStart_of_isAttributeChar (named.continues char member)))
  obtain ⟨behind, spelled, shape⟩ := exists_toList_attributeLine style name value
  rw [spelled]
  refine List.forall_mem_cons.mpr ⟨by decide, List.forall_mem_append.mpr ⟨own, ?_⟩⟩
  obtain ⟨rfl, _⟩ | rfl := shape
  · exact List.forall_mem_nil _
  · exact List.forall_mem_cons.mpr ⟨by decide, List.forall_mem_append.mpr
      ⟨isValue.isLine, List.forall_mem_singleton.mpr (by decide)⟩⟩

/-- There is no white space around the line of an attribute. -/
theorem trim_attributeLine (named : IsAttributeName name) (style : CaseStyle) (value : String) :
    trim (style.attributeLine name value).toList = (style.attributeLine name value).toList := by
  obtain ⟨behind, spelled, shape⟩ := exists_toList_attributeLine style name value
  rw [spelled]
  obtain ⟨rfl, _⟩ | rfl := shape
  · have last := named.continues _ (List.getLast_mem named.nonempty)
    have ends : ':' :: (name.toList ++ []) =
        (':' :: name.toList.dropLast) ++ [name.toList.getLast named.nonempty] := by
      rw [List.append_nil, List.cons_append, List.dropLast_append_getLast]
    exact trim_of_ends rfl (by decide) ends
      (OutlinePiece.isNameStart_facts (isNameStart_of_isAttributeChar last)).1
  · have ends : ':' :: (name.toList ++ '(' :: (value.toList ++ [')'])) =
        (':' :: (name.toList ++ '(' :: value.toList)) ++ [')'] := by
      simp
    exact trim_of_ends rfl (by decide) ends (by decide)

/-- The parts of an attribute are read from its line. -/
theorem attributeParts?_attributeLine (named : IsAttributeName name)
    (isValue : FixtureCase.IsValue value) :
    attributeParts? (trim (style.attributeLine name value).toList) = some (name, value) := by
  rw [trim_attributeLine named]
  obtain ⟨behind, spelled, shape⟩ := exists_toList_attributeLine style name value
  have taken : (name.toList ++ behind).takeWhile isAttributeChar = name.toList := by
    rw [List.takeWhile_append_of_pos named.continues]
    obtain ⟨rfl, _⟩ | rfl := shape
    · simp
    · rw [List.takeWhile_cons_of_neg (by decide), List.append_nil]
  have nonempty : name.toList.isEmpty = false := by simpa using named.nonempty
  rw [spelled, attributeParts?]
  dsimp only
  rw [taken, nonempty, List.drop_left]
  -- an attribute without a value is a name alone, any other has it in parentheses
  obtain ⟨rfl, rfl⟩ | rfl := shape
  · simp
  · have inner : (value.toList ++ [')']).takeWhile (· ≠ ')') = value.toList := by
      have plain : ∀ char ∈ value.toList, decide (char ≠ ')') = true := fun char member =>
        decide_eq_true fun same => isValue.inside (by rwa [← same])
      rw [List.takeWhile_append_of_pos plain, List.takeWhile_cons_of_neg (by decide),
        List.append_nil]
    show (if (value.toList ++ [')']).drop
        ((value.toList ++ [')']).takeWhile (· ≠ ')')).length = [')']
      then some (_, String.ofList (trim ((value.toList ++ [')']).takeWhile (· ≠ ')'))))
      else none) = _
    rw [inner, List.drop_left, isValue.trimmed, String.ofList_toList, String.ofList_toList,
      if_pos rfl]

variable {attributes : CaseAttributes}

/-- The lines of attributes are lines, and all of them start with a colon. -/
theorem isLine_attributeLines (style : CaseStyle)
    (grammar : ∀ value ∈ attributes.grammar, FixtureCase.IsValue value)
    (type : ∀ value ∈ attributes.type, FixtureCase.IsValue value) :
    ∀ line ∈ style.attributeLines attributes,
      (∀ char ∈ line.toList, isLineBreak char = false) ∧ line.toList.head? = some ':' := by
  have each : ∀ {name}, IsAttributeName name → ∀ {stated : Option String},
      (∀ value ∈ stated, FixtureCase.IsValue value) →
      ∀ line ∈ stated.toList.map (style.attributeLine name),
        (∀ char ∈ line.toList, isLineBreak char = false) ∧ line.toList.head? = some ':' := by
    intro name named stated isValue
    refine List.forall_mem_map.mpr fun value own => ⟨isLine_attributeLine named
      (isValue value (Option.mem_toList.mp own)), ?_⟩
    obtain ⟨behind, spelled, _⟩ := exists_toList_attributeLine style name value
    rw [spelled]
    rfl
  -- the two attributes may be written in either order
  have first := each isAttributeName_grammar grammar
  have second := each isAttributeName_type type
  unfold attributeLines
  dsimp only
  split
  · exact List.forall_mem_append.mpr ⟨second, first⟩
  · exact List.forall_mem_append.mpr ⟨first, second⟩

/-- Attributes are read from their lines. -/
theorem addAll_attributeLines (style : CaseStyle)
    (grammar : ∀ value ∈ attributes.grammar, FixtureCase.IsValue value)
    (type : ∀ value ∈ attributes.type, FixtureCase.IsValue value) (number : Nat) :
    CaseAttributes.addAll ⟨none, none⟩ number
      ((style.attributeLines attributes).map String.toList) = .ok attributes := by
  obtain ⟨grammarValue, typeValue⟩ := attributes
  have addGrammar : ∀ value ∈ grammarValue, ∀ others : CaseAttributes,
      others.add? (style.attributeLine "grammar" value).toList =
        some { others with grammar := some value } := by
    intro value own others
    rw [CaseAttributes.add?,
      attributeParts?_attributeLine isAttributeName_grammar (grammar value own)]
    rfl
  have addType : ∀ value ∈ typeValue, ∀ others : CaseAttributes,
      others.add? (style.attributeLine "type" value).toList =
        some { others with type := some value } := by
    intro value own others
    rw [CaseAttributes.add?, attributeParts?_attributeLine isAttributeName_type (type value own)]
    rfl
  -- which attributes there are and which of them comes first are both open
  unfold attributeLines
  cases grammarValue with
  | none =>
    cases typeValue with
    | none => cases style.typeFirst <;> rfl
    | some kind => cases style.typeFirst <;> simp [CaseAttributes.addAll, addType kind rfl]
  | some own =>
    cases typeValue with
    | none => cases style.typeFirst <;> simp [CaseAttributes.addAll, addGrammar own rfl]
    | some kind =>
      cases style.typeFirst <;>
        simp [CaseAttributes.addAll, addGrammar own rfl, addType kind rfl]

end CaseStyle

/-! ## Lines of trees -/

/-- Neither of two texts starts with a character, so their sequence does not. -/
theorem head?_append_ne {char : Char} {first second : List Char} (one : first.head? ≠ some char)
    (two : second.head? ≠ some char) : (first ++ second).head? ≠ some char := by
  cases first with
  | nil => exact two
  | cons own others => exact one

namespace Outline

variable {outline : Outline} {indent kind : String} {field text : Option String}

/-- A literal stands on one line if its text has no other line breaks than line feeds, which are
written as escapes. -/
theorem isLine_content {chars : List Char}
    (feeds : ∀ char ∈ chars, isLineBreak char = true → char = '\n') :
    ∀ char ∈ Literal.content chars, isLineBreak char = false := by
  intro own member
  obtain ⟨char, inside, spells⟩ := List.mem_flatMap.mp member
  have escape : ∀ letter, isLineBreak letter = false → ∀ own ∈ ['\\', letter],
      isLineBreak own = false := fun letter plain => List.forall_mem_cons.mpr
    ⟨by decide, List.forall_mem_singleton.mpr plain⟩
  unfold Literal.encodeChar at spells
  split at spells
  · exact escape '\\' (by decide) own spells
  split at spells
  · exact escape '"' (by decide) own spells
  split at spells
  · exact escape 'n' (by decide) own spells
  next feed =>
  split at spells
  · exact escape 't' (by decide) own spells
  · rw [List.mem_singleton.mp spells, Bool.eq_false_iff]
    exact fun breaks => feed (feeds char inside breaks)

theorem exists_toList_opening (kind : String) (text : Option String) :
    ∃ more, (opening kind text).toList = '(' :: more := by
  cases text <;> simp [opening]

/-- A node is opened on one line. -/
theorem isLine_opening (named : isName kind = true)
    (feeds : ∀ own ∈ text, ∀ char ∈ own.toList, isLineBreak char = true → char = '\n') :
    ∀ char ∈ (opening kind text).toList, isLineBreak char = false := by
  have own := isLine_name named
  cases text with
  | none =>
    rw [opening, String.toList_append]
    exact List.forall_mem_append.mpr ⟨List.forall_mem_singleton.mpr (by decide), own⟩
  | some text =>
    have content := isLine_content (feeds text rfl)
    have spelled : (opening kind (some text)).toList =
        '(' :: (kind.toList ++ ' ' :: '"' :: (Literal.content text.toList ++ ['"'])) := by
      simp [opening, Literal.toList_encode]
    rw [spelled]
    simp only [List.forall_mem_cons, List.forall_mem_append]
    exact ⟨by decide, own, by decide, by decide, content, by decide, List.forall_mem_nil _⟩

/-- What stands in front of a node is on its line, and does not start with an equals sign. -/
theorem isLine_label (named : ∀ name ∈ field, isName name = true) :
    (∀ char ∈ (label field).toList, isLineBreak char = false) ∧
      (label field).toList.head? ≠ some '=' := by
  cases field with
  | none => exact ⟨List.forall_mem_nil _, nofun⟩
  | some name =>
    obtain ⟨first, more, spelled, starts, _⟩ := exists_of_isName (named name rfl)
    rw [toList_label (named name rfl)]
    refine ⟨List.forall_mem_append.mpr ⟨isLine_name (named name rfl),
      isLine_of_all (by decide)⟩, ?_⟩
    rw [spelled]
    rintro ⟨⟩
    exact absurd starts (by decide)

/-- The line that opens a node is one, and it does not start with an equals sign. -/
theorem isLine_headLine (names : outline.HasNames) (feeds : outline.HasOnlyFeeds) (level : Nat) :
    (∀ char ∈ (outline.headLine standardIndent level).toList, isLineBreak char = false) ∧
      (outline.headLine standardIndent level).toList.head? ≠ some '=' := by
  have blank : ∀ char ∈ (padding standardIndent level).toList, char = ' ' := by
    rw [padding, String.toList_join]
    intro char member
    obtain ⟨own, copies, inside⟩ := List.mem_flatMap.mp member
    rw [List.eq_of_mem_replicate copies, show standardIndent.toList = [' ', ' '] from rfl] at inside
    simpa using inside
  obtain ⟨plain, starts⟩ := isLine_label names.field
  rw [headLine, String.toList_append, String.toList_append]
  constructor
  · refine List.forall_mem_append.mpr ⟨List.forall_mem_append.mpr ⟨fun char member => ?_, plain⟩,
      isLine_opening names.kind feeds⟩
    rw [blank char member]
    decide
  · obtain ⟨more, opens⟩ := exists_toList_opening outline.kind outline.text
    refine head?_append_ne (head?_append_ne (fun first => ?_) starts) (by rw [opens]; simp)
    exact absurd (blank '=' (List.mem_of_mem_head? first)) (by decide)

/-- The lines of a tree are lines, and none of them starts with an equals sign. -/
theorem isLine_prettyLines (writable : outline.IsWritable)
    (feeds : outline.Everywhere HasOnlyFeeds) :
    ∀ line ∈ prettyLines standardIndent 0 outline,
      (∀ char ∈ line.toList, isLineBreak char = false) ∧ line.toList.head? ≠ some '=' := by
  refine forall_mem_prettyLines standardIndent ?_ outline ((writable.hasNames.and feeds).mono
    fun inner both level => isLine_headLine both.1 both.2 level) 0
  rintro line ⟨plain, starts⟩
  rw [String.toList_append]
  exact ⟨List.forall_mem_append.mpr ⟨plain, List.forall_mem_singleton.mpr (by decide)⟩,
    head?_append_ne starts (by decide)⟩

/-- A rendered tree without a field name stands in parentheses. -/
theorem ends_pretty (root : outline.field = none) (indent : String) :
    (outline.pretty indent).toList.head? = some '(' ∧
      (outline.pretty indent).toList.getLast? = some ')' := by
  have whole := cons_intercalate (prettyLines_ne_nil indent 0 outline)
  obtain ⟨kind, text, field, children⟩ := outline
  subst root
  obtain ⟨more, opens⟩ := exists_toList_opening kind text
  have spelled : (pretty ⟨kind, text, none, children⟩ indent).toList =
      '(' :: (more ++ fed (prettyChildren indent 1 children) ++ [')']) := by
    rw [prettyLines, fed_closeLast] at whole
    have first : (padding indent 0 ++ label none ++ opening kind text).toList = '(' :: more := by
      rw [String.toList_append, opens]
      rfl
    rw [fed, List.flatMap_cons, first] at whole
    exact (List.cons.inj whole).2
  rw [spelled]
  exact ⟨rfl, by rw [← List.cons_append, List.getLast?_concat]⟩

/-- The lines of a rendered tree. -/
theorem feedLines_pretty (writable : outline.IsWritable) (feeds : outline.Everywhere HasOnlyFeeds) :
    feedLines (outline.pretty standardIndent).toList =
      (prettyLines standardIndent 0 outline).map String.toList := by
  rw [pretty, String.toList_intercalate]
  refine feedLines_intercalate
    (fun empty => prettyLines_ne_nil standardIndent 0 outline (List.map_eq_nil_iff.mp empty))
    (List.forall_mem_map.mpr fun line member feed => ?_)
  exact absurd ((isLine_prettyLines writable feeds line member).1 '\n' feed) (by decide)

/-- A rendered tree has no other line breaks than line feeds. -/
theorem feeds_pretty (writable : outline.IsWritable) (feeds : outline.Everywhere HasOnlyFeeds) :
    ∀ char ∈ (outline.pretty standardIndent).toList, isLineBreak char = true → char = '\n' := by
  intro char member breaks
  have inside : char ∈ fed (prettyLines standardIndent 0 outline) := by
    rw [← cons_intercalate (prettyLines_ne_nil standardIndent 0 outline)]
    exact List.mem_cons_of_mem _ member
  obtain ⟨line, isLine, own⟩ := List.mem_flatMap.mp inside
  refine (List.mem_cons.mp own).resolve_right fun here => ?_
  rw [(isLine_prettyLines writable feeds line isLine).1 char here] at breaks
  cases breaks

end Outline

/-! ## The lines of a case -/

/-- What stands on one line is its only line. -/
theorem feedLines_of_isLine {line : List Char} (isLine : ∀ char ∈ line, isLineBreak char = false) :
    feedLines line = [line] :=
  feedLines_of_noFeed fun feed => absurd (isLine '\n' feed) (by decide)

/-- Line feeds in front of a text are blank lines above it. -/
theorem feedLines_replicate_append (count : Nat) (text : List Char) :
    feedLines (List.replicate count '\n' ++ text) = List.replicate count [] ++ feedLines text := by
  induction count with
  | zero => rfl
  | succ count ih =>
    rw [List.replicate_succ, List.cons_append, feedLines, if_pos rfl, ih, List.replicate_succ,
      List.cons_append]

/-- Parts that end with line feeds are cut into their lines. -/
theorem breakLines_parts {parts : List String}
    (feeds : ∀ part ∈ parts, ∀ char ∈ part.toList, isLineBreak char = true → char = '\n')
    (rest : List Char) :
    breakLines ((String.join (parts.map (· ++ "\n"))).toList ++ rest) =
      parts.flatMap (fun part => feedLines part.toList) ++ breakLines rest := by
  induction parts with
  | nil => rfl
  | cons part others ih =>
    obtain ⟨here, below⟩ := List.forall_mem_cons.mp feeds
    have spelled : (String.join ((part :: others).map (· ++ "\n"))).toList ++ rest =
        part.toList ++ '\n' :: ((String.join (others.map (· ++ "\n"))).toList ++ rest) := by
      simp
    rw [spelled, breakLines_feeds here, ih below, List.flatMap_cons, List.append_assoc]

namespace FixtureCase

variable {case : FixtureCase}

/-- The lines of a header behind the rule above it. -/
def headerLines (case : FixtureCase) (style : CaseStyle) : List (List Char) :=
  case.name.toList :: ((style.attributeLines case.attributes).map String.toList ++
    [style.below.toList])

/-- The lines of a case below its header. -/
def IsWritable.lines (writable : case.IsWritable) (style : CaseStyle) : CaseLines where
  body := List.replicate style.blanks [] ++ feedLines case.input.toList
  divider := "---".toList
  tree := [] :: (feedLines (case.expected.pretty Outline.standardIndent).toList ++ [[]])
  plain := List.forall_mem_append.mpr ⟨fun line member => by
    rw [List.eq_of_mem_replicate member]
    decide, writable.plain⟩
  divides := by decide
  inside := by
    have blank : isHeaderLine [] = false := by decide
    rw [Outline.feedLines_pretty writable.expected writable.onlyFeeds]
    -- an indented line starts with a space, and the first one with a parenthesis
    refine List.forall_mem_cons.mpr ⟨blank, List.forall_mem_append.mpr
      ⟨List.forall_mem_map.mpr fun line member => ?_, List.forall_mem_singleton.mpr blank⟩⟩
    exact (not_isHeaderLine_of_head
      (Outline.isLine_prettyLines writable.expected writable.onlyFeeds line member).2).2

/-- The input is read without the blank lines above it. -/
theorem IsWritable.input_lines (writable : case.IsWritable) (style : CaseStyle) :
    (writable.lines style).input = case.input := by
  have joined : joinLines (writable.lines style).body =
      List.replicate style.blanks '\n' ++ (case.input.toList ++ []) := by
    rw [List.append_nil, joinLines]
    show ['\n'].intercalate (List.replicate style.blanks [] ++ feedLines case.input.toList) = _
    rw [← feedLines_replicate_append, intercalate_feedLines]
  have apart : ∀ char, char ≠ '\n' → decide (char = '\n') = false := fun _ => decide_eq_false
  have above : ∀ char ∈ List.replicate style.blanks '\n', decide (char = '\n') = true :=
    fun char member => decide_eq_true (List.eq_of_mem_replicate member)
  rw [CaseLines.input, joined, trimWhile_around above (List.forall_mem_nil _), String.ofList_toList]
  · exact fun char first => apart char fun same => writable.starts (same ▸ first)
  · exact fun char last => apart char fun same => writable.ends (same ▸ last)

/-- The tree is read without the blank lines around it. -/
theorem IsWritable.treeText_lines (writable : case.IsWritable) (style : CaseStyle) :
    (writable.lines style).treeText = case.expected.pretty Outline.standardIndent := by
  have joined : joinLines (writable.lines style).tree =
      ['\n'] ++ ((case.expected.pretty Outline.standardIndent).toList ++ ['\n']) := by
    have cut : (writable.lines style).tree =
        feedLines ('\n' :: ((case.expected.pretty Outline.standardIndent).toList ++ ['\n'])) := by
      rw [feedLines, if_pos rfl, feedLines_append_feed]
      rfl
    rw [cut, joinLines, intercalate_feedLines]
    rfl
  have blank : ∀ char ∈ ['\n'], isBlank char = true := List.forall_mem_singleton.mpr (by decide)
  obtain ⟨opens, closes⟩ := Outline.ends_pretty writable.root Outline.standardIndent
  rw [CaseLines.treeText, joined, trim, trimWhile_around blank blank, String.ofList_toList]
  · rw [opens]
    rintro _ ⟨⟩
    decide
  · rw [closes]
    rintro _ ⟨⟩
    decide

/-- The lines below a header are read as the case. -/
theorem IsWritable.outcome_lines (writable : case.IsWritable) (style : CaseStyle)
    (number extra : Nat) :
    (writable.lines style).outcome number ⟨case.name, case.attributes, extra⟩ =
      .ok ({ case with line := number }, (writable.lines style).all.length) := by
  have blank : ∀ char ∈ Outline.standardIndent.toList, isBlank char = true :=
    List.all_eq_true.mp (by decide)
  refine CaseLines.outcome_eq_ok_iff.mpr ⟨case.expected, ?_, ?_, rfl⟩
  · rw [writable.treeText_lines]
    exact Outline.read_pretty writable.expected writable.root blank
  · rw [writable.input_lines]

/-- A header is read from its lines. -/
theorem IsWritable.read_headerLines (writable : case.IsWritable) (style : CaseStyle)
    (number : Nat) :
    CaseHeader.read number style.above.toList (case.headerLines style) =
      .ok ⟨case.name, case.attributes, (case.headerLines style).length⟩ := by
  have named : case.name.toList.all isBlank = false := by
    have nonempty : case.name.toList ≠ [] := fun empty =>
      writable.named (String.toList_eq_nil_iff.mp empty)
    obtain ⟨⟨first, others, spelled, visible⟩, _⟩ := ends_of_trim nonempty writable.trimmed
    rw [spelled, List.all_cons, visible, Bool.false_and]
  have plain : ∀ line ∈ (style.attributeLines case.attributes).map String.toList,
      isRule line = false := by
    refine List.forall_mem_map.mpr fun line member => (not_isHeaderLine_of_head ?_).1
    rw [(style.isLine_attributeLines writable.grammar writable.type line member).2]
    decide
  have reads := CaseHeader.read_rule (inlineName?_of_isRule style.isRule_above) style.isRule_above
    named plain style.isRule_below
    (style.addAll_attributeLines writable.grammar writable.type (number + 2)) []
  rw [writable.trimmed, String.ofList_toList] at reads
  rw [headerLines, reads]
  simp

/-- No part of a case has other line breaks than line feeds. -/
theorem IsWritable.feeds_parts (writable : case.IsWritable) (style : CaseStyle) :
    ∀ part ∈ case.parts style, ∀ char ∈ part.toList, isLineBreak char = true → char = '\n' := by
  have single : ∀ {part : String}, (∀ char ∈ part.toList, isLineBreak char = false) →
      ∀ char ∈ part.toList, isLineBreak char = true → char = '\n' :=
    fun plain char member breaks => absurd breaks (by
      rw [plain char member]; exact Bool.false_ne_true)
  have nothing : ∀ char ∈ "".toList, isLineBreak char = true → char = '\n' := List.forall_mem_nil _
  have divider : ∀ char ∈ "---".toList, isLineBreak char = true → char = '\n' :=
    single (isLine_of_all (by decide))
  refine List.forall_mem_cons.mpr ⟨single style.isLine_above, List.forall_mem_cons.mpr
    ⟨single writable.isLine, List.forall_mem_append.mpr ⟨fun line member => ?_, ?_⟩⟩⟩
  · exact single (style.isLine_attributeLines writable.grammar writable.type line member).1
  · refine List.forall_mem_cons.mpr ⟨single style.isLine_below, List.forall_mem_append.mpr
      ⟨fun part member => ?_, ?_⟩⟩
    · rw [List.eq_of_mem_replicate member]
      exact nothing
    · simp only [List.forall_mem_cons]
      exact ⟨writable.feeds, divider, nothing,
        Outline.feeds_pretty writable.expected writable.onlyFeeds, nothing, List.forall_mem_nil _⟩

/-- The lines of the parts of a case. -/
theorem IsWritable.flatMap_parts (writable : case.IsWritable) (style : CaseStyle) :
    (case.parts style).flatMap (fun part => feedLines part.toList) =
      style.above.toList :: (case.headerLines style ++ (writable.lines style).all) := by
  have attributes :
      (style.attributeLines case.attributes).flatMap (fun part => feedLines part.toList) =
        (style.attributeLines case.attributes).map String.toList := by
    rw [List.map_eq_flatMap]
    exact List.flatMap_congr fun line member => feedLines_of_isLine
      (style.isLine_attributeLines writable.grammar writable.type line member).1
  have nothing : feedLines "".toList = [[]] := rfl
  have blanks : (List.replicate style.blanks "").flatMap (fun part => feedLines part.toList) =
      List.replicate style.blanks [] := by
    rw [List.flatMap_replicate, nothing, List.flatten_replicate_singleton]
  have divider : feedLines "---".toList = ["---".toList] :=
    feedLines_of_isLine (isLine_of_all (by decide))
  simp only [parts, List.flatMap_cons, List.flatMap_append, List.flatMap_nil, attributes, nothing,
    blanks, divider, feedLines_of_isLine style.isLine_above, feedLines_of_isLine style.isLine_below,
    feedLines_of_isLine writable.isLine]
  simp [headerLines, CaseLines.all, lines]

/-- A written case is cut into its lines, whatever is written behind it. -/
theorem IsWritable.breakLines_written (writable : case.IsWritable) (style : CaseStyle)
    (rest : List Char) :
    breakLines ((case.written style).toList ++ rest) =
      style.above.toList ::
        (case.headerLines style ++ ((writable.lines style).all ++ breakLines rest)) := by
  rw [written, breakLines_parts (writable.feeds_parts style), writable.flatMap_parts,
    List.cons_append, List.append_assoc]

/-- The number of lines of a written case. -/
theorem IsWritable.length_written (writable : case.IsWritable) (style : CaseStyle) :
    (textLines (case.written style)).length =
      1 + ((case.headerLines style).length + (writable.lines style).all.length) := by
  have cut := writable.breakLines_written style []
  rw [List.append_nil] at cut
  rw [textLines, List.length_map, cut, breakLines]
  simp only [List.length_cons, List.length_append, List.length_nil]
  omega

/-- The first case is read from its lines, whatever case follows. -/
theorem IsWritable.readCase_lines (writable : case.IsWritable) (style : CaseStyle) (number : Nat)
    {more : List (List Char)} (starts : StartsCase more) :
    readCase number style.above.toList
        (case.headerLines style ++ ((writable.lines style).all ++ more)) =
      .ok ({ case with line := number },
        (case.headerLines style).length + (writable.lines style).all.length) := by
  rw [readCase_append (writable.read_headerLines style number) rfl (writable.lines style) starts,
    writable.outcome_lines]
  rfl

end FixtureCase

/-! ## Files of cases -/

variable {cases : List (FixtureCase × CaseStyle)}

/-- The lines of written cases start with a rule. -/
theorem startsCase_writtenCases (writable : ∀ entry ∈ cases, entry.1.IsWritable) :
    StartsCase (breakLines (writtenCases cases).toList) := by
  cases cases with
  | nil => exact startsCase_nil
  | cons entry others =>
    obtain ⟨case, style⟩ := entry
    rw [writtenCases, List.map_cons, String.join_cons, String.toList_append,
      (writable _ List.mem_cons_self).breakLines_written]
    rintro _ ⟨⟩
    rw [isHeaderLine, style.isRule_above, Bool.true_or]

/-- The lines of written cases are read as the cases. -/
theorem casesFrom_writtenCases (number : Nat) (writable : ∀ entry ∈ cases, entry.1.IsWritable) :
    casesFrom number (breakLines (writtenCases cases).toList) = .ok (placedCases number cases) := by
  -- a case ends where the rule of the next one stands, and moves the number on by its own lines
  induction cases generalizing number with
  | nil => exact casesFrom_nil number
  | cons entry others ih =>
    obtain ⟨case, style⟩ := entry
    obtain ⟨here, below⟩ := List.forall_mem_cons.mp writable
    have starts := startsCase_writtenCases below
    have next : number + 1 + ((case.headerLines style).length + (here.lines style).all.length) =
        number + (textLines (case.written style)).length := by
      rw [here.length_written, Nat.add_assoc]
    rw [writtenCases, List.map_cons, String.join_cons, String.toList_append,
      here.breakLines_written, casesFrom_cons]
    rw [writtenCases] at ih starts
    rw [here.readCase_lines style number starts]
    show (casesFrom (number + 1 + _) (List.drop _ _) >>= _) = _
    rw [← List.length_append, ← List.append_assoc, List.drop_left, List.length_append, next,
      ih _ below]
    rfl

/-- **Fixture files are read back.** From cases that are written one behind the other the same cases
are read, in the same order, each with the number of its first line. -/
theorem readFixture_writtenCases (cases : List (FixtureCase × CaseStyle))
    (writable : ∀ entry ∈ cases, entry.1.IsWritable) :
    readFixture (writtenCases cases) = .ok (placedCases 1 cases) := by
  have none : ∀ line ∈ ([] : List (List Char)), line.all isBlank = true := List.forall_mem_nil _
  rw [readFixture_eq (List.nil_append _).symm none (startsCase_writtenCases writable)]
  exact casesFrom_writtenCases 1 writable

/-- Three signs on either side of a header, bare attributes, and one blank line above the input. -/
def CaseStyle.standard : CaseStyle where
  above := "==="
  below := "==="
  isBare := true
  typeFirst := false
  blanks := 1
  isRule_above := by decide
  isRule_below := by decide
  isLine_above := isLine_of_all (by decide)
  isLine_below := isLine_of_all (by decide)

set_option maxRecDepth 10000 in
/-- A case with attributes, a line feed in its input and one in its tree, and a case without. -/
theorem readFixture_writtenCases_two :
    let list : FixtureCase := ⟨"one name", "A\n\n- B",
      ⟨"list", none, none, [⟨"name", some "A\n", some "head", []⟩]⟩, 1, ⟨some "type", some ""⟩⟩
    let nothing : FixtureCase := ⟨"nothing", "", ⟨"empty", none, none, []⟩, 15, ⟨none, none⟩⟩
    list.IsWritable ∧ nothing.IsWritable ∧
      readFixture ("===\none name\n:grammar(type)\n:type\n===\n\nA\n\n- B\n---\n\n" ++
        "(list\n  head: (name \"A\\n\"))\n\n===\nnothing\n===\n\n\n---\n\n(empty)\n\n") =
        .ok [list, nothing] := by
  intro list nothing
  have isList : list.IsWritable := {
    named := by decide
    trimmed := by decide
    isLine := isLine_of_all (by decide)
    grammar := by rintro _ ⟨⟩; exact ⟨by decide, by decide, isLine_of_all (by decide)⟩
    type := by rintro _ ⟨⟩; exact ⟨by decide, by decide, isLine_of_all (by decide)⟩
    starts := by decide
    ends := by decide
    feeds := feeds_of_all (by decide)
    plain := by decide
    root := rfl
    expected := by
      refine .node (by decide) nofun nofun (List.forall_mem_singleton.mpr
        (.node (by decide) ?_ (by decide) (List.forall_mem_nil _)))
      rintro _ ⟨⟩
      exact List.all_eq_true.mp (by decide)
    onlyFeeds := by
      refine .node nofun (List.forall_mem_singleton.mpr (.node ?_ (List.forall_mem_nil _)))
      rintro _ ⟨⟩
      exact feeds_of_all (by decide) }
  have isNothing : nothing.IsWritable := {
    named := by decide
    trimmed := by decide
    isLine := isLine_of_all (by decide)
    grammar := nofun
    type := nofun
    starts := by decide
    ends := by decide
    feeds := feeds_of_all (by decide)
    plain := by decide
    root := rfl
    expected := .node (by decide) nofun nofun (List.forall_mem_nil _)
    onlyFeeds := .node nofun (List.forall_mem_nil _) }
  have reads := readFixture_writtenCases [(list, .standard), (nothing, .standard)]
    (List.forall_mem_cons.mpr ⟨isList, List.forall_mem_singleton.mpr isNothing⟩)
  have spelled : writtenCases [(list, .standard), (nothing, .standard)] =
      "===\none name\n:grammar(type)\n:type\n===\n\nA\n\n- B\n---\n\n" ++
        "(list\n  head: (name \"A\\n\"))\n\n===\nnothing\n===\n\n\n---\n\n(empty)\n\n" := by
    unfold list nothing
    cbv
  have placed : placedCases 1 [(list, .standard), (nothing, .standard)] = [list, nothing] := by
    unfold list nothing
    cbv
  rw [spelled, placed] at reads
  exact ⟨isList, isNothing, reads⟩

end DocGrammar
