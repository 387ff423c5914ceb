import DocGrammar.Proofs.Text.Breaks
import DocGrammar.Proofs.Trees.Outlines

/-! # Rendered outlines are told apart

An outline that is rendered on many lines is determined by its text: names end where no character
of a name follows, literals end at the first quote without a backslash, and what follows a node
starts with a parenthesis or on a new line. If the text is cut at all its line breaks, those in
literals cannot be told from each other nor from those between nodes, but the rest still can.

* **`Outline.Everywhere`** — what holds of an outline and of all that it contains.
* **`Outline.hasNames_of_read`** — what is read has names for kinds and field names.
* **`Outline.forall_mem_prettyLines`** — the lines of an outline are made of those of its nodes.
* **`Outline.levelled`** — an outline with all line breaks of a text made alike.
* **`Outline.textLines_pretty_eq_iff`** — when two rendered outlines have the same lines. -/

namespace DocGrammar

/-! ## Names -/

/-- Whether a text is a name to the reader of outlines. -/
def isName (name : String) : Bool :=
  match name.toList with
  | [] => false
  | first :: others => OutlinePiece.isNameStart first && others.all OutlinePiece.isNameChar

/-- What starts a name also continues one. -/
theorem isNameChar_of_isNameStart {char : Char} (starts : OutlinePiece.isNameStart char = true) :
    OutlinePiece.isNameChar char = true := by
  have word : isWordStart char = true := by
    simp only [OutlinePiece.isNameStart, isWordStart, isLetter, Bool.or_eq_true, decide_eq_true_eq,
      beq_iff_eq] at starts ⊢
    exact starts.imp_left .inl
  rw [OutlinePiece.isNameChar, isWordChar_of_isWordStart word, Bool.true_or]

/-- A name starts as a name does, and all its characters may continue one. -/
theorem exists_of_isName {name : String} (valid : isName name = true) :
    ∃ first more, name.toList = first :: more ∧ OutlinePiece.isNameStart first = true ∧
      ∀ char ∈ name.toList, OutlinePiece.isNameChar char = true := by
  unfold isName at valid
  split at valid
  · cases valid
  · next first more spelled =>
    obtain ⟨starts, continues⟩ := Bool.and_eq_true_iff.mp valid
    rw [spelled]
    exact ⟨first, more, rfl, starts, List.forall_mem_cons.mpr
      ⟨isNameChar_of_isNameStart starts, List.all_eq_true.mp continues⟩⟩

/-- A field name is a name to the reader. -/
theorem isName_of_isFieldName {name : String} (valid : isFieldName name = true) :
    isName name = true := by
  obtain ⟨first, more, spelled, starts, continues⟩ := OutlinePiece.exists_of_isFieldName valid
  rw [isName, spelled]
  exact Bool.and_eq_true_iff.mpr ⟨starts, List.all_eq_true.mpr continues⟩

/-- No line breaks inside a name. -/
theorem isLineBreak_of_isNameChar {char : Char} (continues : OutlinePiece.isNameChar char = true) :
    isLineBreak char = false := by
  rw [OutlinePiece.isNameChar, Bool.or_eq_true, decide_eq_true_eq] at continues
  rcases continues with word | rfl
  · exact isLineBreak_of_isWordChar word
  · decide

/-- A name stands on one line. -/
theorem isLine_name {name : String} (named : isName name = true) :
    ∀ char ∈ name.toList, isLineBreak char = false := by
  obtain ⟨_, _, _, _, continues⟩ := exists_of_isName named
  exact fun char member => isLineBreak_of_isNameChar (continues char member)

/-- Two names end where no character of a name follows. -/
theorem name_append_inj {name other : String} {rest otherRest : List Char}
    (valid : isName name = true) (otherValid : isName other = true)
    (stops : ∀ char ∈ rest.head?, OutlinePiece.isNameChar char = false)
    (otherStops : ∀ char ∈ otherRest.head?, OutlinePiece.isNameChar char = false)
    (same : name.toList ++ rest = other.toList ++ otherRest) :
    name = other ∧ rest = otherRest := by
  obtain ⟨_, _, _, _, continues⟩ := exists_of_isName valid
  obtain ⟨_, _, _, _, otherContinues⟩ := exists_of_isName otherValid
  have taken := congrArg (List.takeWhile OutlinePiece.isNameChar) same
  rw [OutlinePiece.takeWhile_name continues stops,
    OutlinePiece.takeWhile_name otherContinues otherStops] at taken
  rw [taken] at same
  exact ⟨String.ext taken, List.append_cancel_left same⟩

namespace OutlinePiece

/-- Whether a piece that is a kind or a field name is a name. -/
def IsNamed : OutlinePiece → Prop
  | field name | kind name => isName name = true
  | _ => True

/-- A name that is scanned is a name. -/
theorem isNamed_of_scan? {char : Char} {rest : List Char} {piece : OutlinePiece} {extra : Nat}
    (scans : scan? char rest = some (piece, extra)) : piece.IsNamed := by
  have valid : isNameStart char = true →
      isName (String.ofList (char :: rest.takeWhile isNameChar)) = true := fun starts => by
    rw [isName, String.toList_ofList]
    exact Bool.and_eq_true_iff.mpr ⟨starts, List.all_takeWhile⟩
  unfold scan? at scans
  split at scans
  · cases scans
    trivial
  split at scans
  · cases scans
    trivial
  split at scans
  · obtain ⟨content, _, found⟩ := Option.map_eq_some_iff.mp scans
    cases found
    trivial
  split at scans
  · next starts =>
    dsimp only at scans
    split at scans
    · cases scans
      exact valid starts
    · cases scans
      exact valid starts
  · cases scans

/-- The names among the pieces of a text are names. -/
theorem isNamed_of_all {chars : List Char} {pieces : List OutlinePiece}
    (reads : all chars = .ok pieces) : ∀ piece ∈ pieces, piece.IsNamed := by
  fun_induction all chars generalizing pieces with
  | case1 =>
    cases reads
    exact List.forall_mem_nil _
  | case2 char rest blank ih => exact ih reads
  | case3 char rest _ _ => cases reads
  | case4 char rest _ piece extra scans ih =>
    cases behind : all (rest.drop extra) with
    | error fault =>
      rw [behind] at reads
      cases reads
    | ok others =>
      rw [behind] at reads
      cases reads
      exact List.forall_mem_cons.mpr ⟨isNamed_of_scan? scans, ih behind⟩

end OutlinePiece

namespace Outline

/-! ## What holds throughout an outline -/

/-- Whether something holds of an outline and of all outlines inside it. -/
inductive Everywhere (holds : Outline → Prop) : Outline → Prop
  /-- It holds of the outline and throughout its children. -/
  | node {outline : Outline} (here : holds outline)
      (inside : ∀ child ∈ outline.children, Everywhere holds child) : Everywhere holds outline

variable {holds others : Outline → Prop} {outline other : Outline}

theorem Everywhere.mono (everywhere : outline.Everywhere holds)
    (implies : ∀ inner, holds inner → others inner) : outline.Everywhere others := by
  induction everywhere with
  | node here _ ih => exact .node (implies _ here) ih

theorem Everywhere.and (first : outline.Everywhere holds) (second : outline.Everywhere others) :
    outline.Everywhere fun inner => holds inner ∧ others inner := by
  induction first with
  | node here _ ih =>
    cases second with
    | node own inside =>
      exact .node ⟨here, own⟩ fun child member => ih child member (inside child member)

/-- Whether the kind and the field name of an outline are names. -/
structure HasNames (outline : Outline) : Prop where
  /-- The kind is a name. -/
  kind : isName outline.kind = true
  /-- The field name is a name, if there is one. -/
  field : ∀ name ∈ outline.field, isName name = true

/-- The names of an outline that can be written are names. -/
theorem IsWritable.hasNames (writable : outline.IsWritable) : outline.Everywhere HasNames := by
  induction writable with
  | node named texts fields _ ih =>
    exact .node ⟨isName_of_isFieldName named,
      fun name own => isName_of_isFieldName (fields name own)⟩ ih

/-! ## Outlines that are read -/

/-- What is awaited under a field name that is a name. -/
def Awaited.IsNamed : Awaited → Prop
  | .node field | .kind field => ∀ name ∈ field, isName name = true
  | .content => True

/-- From pieces with names an outline with names is built, if the open nodes have names. -/
theorem hasNames_of_ofPieces {awaited : Awaited} {outer : List Outline}
    {pieces : List OutlinePiece} {outline : Outline}
    (builds : ofPieces awaited outer pieces = .ok outline) (field : awaited.IsNamed)
    (opened : ∀ inner ∈ outer, inner.Everywhere HasNames)
    (named : ∀ piece ∈ pieces, piece.IsNamed) : outline.Everywhere HasNames := by
  fun_induction ofPieces awaited outer pieces with
  -- by the recursion of the reader: names come from pieces and from the open nodes
  | case1 own outer rest ih => exact ih builds field opened (List.forall_mem_cons.mp named).2
  | case3 own outer name rest ih =>
    obtain ⟨kind, behind⟩ := List.forall_mem_cons.mp named
    exact ih builds trivial (List.forall_mem_cons.mpr
      ⟨.node ⟨kind, field⟩ (List.forall_mem_nil _), opened⟩) behind
  | case7 inner rest parent others ih =>
    obtain ⟨closed, ⟨here, inside⟩, around⟩ :=
      (List.forall_mem_cons.mp opened).imp_right List.forall_mem_cons.mp
    refine ih builds trivial (List.forall_mem_cons.mpr ⟨.node ⟨here.kind, here.field⟩ ?_, around⟩)
      (List.forall_mem_cons.mp named).2
    exact List.forall_mem_append.mpr ⟨inside, List.forall_mem_singleton.mpr closed⟩
  | case8 inner =>
    cases builds
    exact opened _ List.mem_cons_self
  | case12 inner outer rest content _ text _ ih =>
    obtain ⟨⟨here, inside⟩, around⟩ := List.forall_mem_cons.mp opened
    exact ih builds trivial (List.forall_mem_cons.mpr
      ⟨.node ⟨here.kind, here.field⟩ inside, around⟩) (List.forall_mem_cons.mp named).2
  | case13 inner outer rest name ih =>
    obtain ⟨own, behind⟩ := List.forall_mem_cons.mp named
    exact ih builds (fun _ same => Option.some.inj same ▸ own) opened behind
  | case14 inner outer rest ih =>
    exact ih builds (fun _ none => nomatch none) opened (List.forall_mem_cons.mp named).2
  | _ => cases builds

/-- The kinds and field names of an outline that is read are names. -/
theorem hasNames_of_read {text : String} {outline : Outline} (reads : read text = .ok outline) :
    outline.Everywhere HasNames := by
  unfold read at reads
  cases cut : OutlinePiece.all text.toList with
  | error fault =>
    rw [cut] at reads
    cases reads
  | ok pieces =>
    rw [cut] at reads
    exact hasNames_of_ofPieces reads (fun _ none => nomatch none) (List.forall_mem_nil _)
      (OutlinePiece.isNamed_of_all cut)

/-! ## Lines of an outline -/

/-- The line that opens a node. -/
def headLine (indent : String) (level : Nat) (outline : Outline) : String :=
  padding indent level ++ label outline.field ++ opening outline.kind outline.text

/-- What is kept by closing a node is kept by closing the last of some lines. -/
theorem forall_mem_closeLast {keeps : String → Prop}
    (close : ∀ line, keeps line → keeps (line ++ ")")) {lines : List String}
    (kept : ∀ line ∈ lines, keeps line) : ∀ line ∈ closeLast lines, keeps line := by
  fun_induction closeLast lines with
  | case1 => exact List.forall_mem_nil _
  | case2 last => exact List.forall_mem_singleton.mpr (close _ (kept _ List.mem_cons_self))
  | case3 first others _ ih =>
    obtain ⟨here, below⟩ := List.forall_mem_cons.mp kept
    exact List.forall_mem_cons.mpr ⟨here, ih below⟩

mutual

/-- What holds of the lines that open nodes, and is kept by closing nodes, holds of all lines. -/
theorem forall_mem_prettyLines {keeps : String → Prop} (indent : String)
    (close : ∀ line, keeps line → keeps (line ++ ")")) : ∀ (outline : Outline),
    (outline.Everywhere fun inner => ∀ level, keeps (inner.headLine indent level)) →
    ∀ level, ∀ line ∈ prettyLines indent level outline, keeps line
  | ⟨kind, text, field, children⟩, everywhere, level => by
    cases everywhere with
    | node here inside =>
    rw [prettyLines]
    exact forall_mem_closeLast close (List.forall_mem_cons.mpr
      ⟨here level, forall_mem_prettyChildren indent close children inside (level + 1)⟩)

theorem forall_mem_prettyChildren {keeps : String → Prop} (indent : String)
    (close : ∀ line, keeps line → keeps (line ++ ")")) : ∀ (children : List Outline),
    (∀ child ∈ children,
      child.Everywhere fun inner => ∀ level, keeps (inner.headLine indent level)) →
    ∀ level, ∀ line ∈ prettyChildren indent level children, keeps line
  | [], _, _ => List.forall_mem_nil _
  | child :: others, everywhere, level => by
    obtain ⟨here, below⟩ := List.forall_mem_cons.mp everywhere
    rw [prettyChildren]
    exact List.forall_mem_append.mpr ⟨forall_mem_prettyLines indent close child here level,
      forall_mem_prettyChildren indent close others below level⟩

end

/-! ## Texts with line breaks -/

/-- The carriage return for every line break but the line feed, which literals escape. -/
def levelBreak (char : Char) : Char :=
  if isLineBreak char && char ≠ '\n' then '\r' else char

/-- A text with all line breaks but line feeds made alike. -/
def levelText (text : String) : String := String.ofList (text.toList.map levelBreak)

mutual

/-- An outline with all line breaks of its texts but line feeds made alike. -/
def levelled : Outline → Outline
  | ⟨kind, text, field, children⟩ => ⟨kind, text.map levelText, field, levelledAll children⟩

/-- Outlines with all line breaks of their texts but line feeds made alike. -/
def levelledAll : List Outline → List Outline
  | [] => []
  | outline :: others => levelled outline :: levelledAll others

end

/-- A character of a literal with a line feed for every line break is an escape, or the character
itself, and says what is escaped or which character is meant up to the kind of break. -/
theorem plainBreak_encodeChar (char : Char) :
    (∃ letter, (Literal.encodeChar char).map plainBreak = ['\\', letter] ∧
      Literal.simpleEscape? letter = some char) ∨
    ((Literal.encodeChar char).map plainBreak = [plainBreak char] ∧ plainBreak char ≠ '\\' ∧
      plainBreak char ≠ '"' ∧ char ≠ '\n') := by
  by_cases escaped : char ∈ ['\\', '"', '\n', '\t']
  · simp only [List.mem_cons, List.not_mem_nil, or_false] at escaped
    rcases escaped with rfl | rfl | rfl | rfl
    · exact .inl ⟨'\\', by decide⟩
    · exact .inl ⟨'"', by decide⟩
    · exact .inl ⟨'n', by decide⟩
    · exact .inl ⟨'t', by decide⟩
  · simp only [List.mem_cons, List.not_mem_nil, or_false, not_or] at escaped
    obtain ⟨backslash, quote, feed, tab⟩ := escaped
    -- breaks other than a line feed are not escaped, so they may become one
    refine .inr ⟨?_, ?_, ?_, feed⟩
    · rw [Literal.encodeChar, if_neg backslash, if_neg quote, if_neg feed, if_neg tab,
        List.map_singleton]
    · unfold plainBreak
      split
      · decide
      · exact backslash
    · unfold plainBreak
      split
      · decide
      · exact quote

/-- Characters that are no line feeds and the same with a line feed for every break are alike. -/
theorem levelBreak_eq_of_plainBreak {char own : Char} (feed : char ≠ '\n') (ownFeed : own ≠ '\n')
    (same : plainBreak char = plainBreak own) : levelBreak char = levelBreak own := by
  unfold plainBreak at same
  unfold levelBreak
  cases breaks : isLineBreak char <;> cases ownBreaks : isLineBreak own <;>
    simp_all [Ne.symm]

/-- A literal ends at its closing quote, also with a line feed for every line break. -/
theorem content_append_inj {chars own rest ownRest : List Char}
    (same : (Literal.content chars).map plainBreak ++ '"' :: rest =
      (Literal.content own).map plainBreak ++ '"' :: ownRest) :
    chars.map levelBreak = own.map levelBreak ∧ rest = ownRest := by
  induction chars generalizing own with
  | nil =>
    cases own with
    | nil => exact ⟨rfl, (List.cons.inj same).2⟩
    | cons char own =>
      rw [Literal.content, Literal.content, List.flatMap_cons, List.map_append] at same
      rcases plainBreak_encodeChar char with ⟨letter, spelled, _⟩ | ⟨spelled, _, quote, _⟩
      · rw [spelled] at same
        exact absurd (List.cons.inj same).1 (by decide)
      · rw [spelled] at same
        exact absurd (List.cons.inj same).1.symm quote
  | cons char chars ih =>
    cases own with
    | nil =>
      rw [Literal.content, Literal.content, List.flatMap_cons, List.map_append] at same
      rcases plainBreak_encodeChar char with ⟨letter, spelled, _⟩ | ⟨spelled, _, quote, _⟩
      · rw [spelled] at same
        exact absurd (List.cons.inj same).1 (by decide)
      · rw [spelled] at same
        exact absurd (List.cons.inj same).1 quote
    | cons ownChar own =>
      rw [Literal.content, Literal.content, List.flatMap_cons, List.flatMap_cons, List.map_append,
        List.map_append, List.append_assoc, List.append_assoc] at same
      -- both characters are escaped or both stand for themselves, since no plain one is a backslash
      rcases plainBreak_encodeChar char with ⟨letter, spelled, means⟩ |
        ⟨spelled, backslash, _, feed⟩ <;>
      rcases plainBreak_encodeChar ownChar with ⟨ownLetter, ownSpelled, ownMeans⟩ |
        ⟨ownSpelled, ownBackslash, _, ownFeed⟩ <;>
      rw [spelled, ownSpelled] at same
      · obtain ⟨rfl, behind⟩ := List.cons.inj (List.cons.inj same).2
        obtain rfl : char = ownChar := Option.some.inj (means.symm.trans ownMeans)
        obtain ⟨inner, left⟩ := ih behind
        exact ⟨congrArg (levelBreak char :: ·) inner, left⟩
      · exact absurd (List.cons.inj same).1.symm ownBackslash
      · exact absurd (List.cons.inj same).1 backslash
      · obtain ⟨here, behind⟩ := List.cons.inj same
        obtain ⟨inner, left⟩ := ih behind
        exact ⟨List.cons_eq_cons.mpr ⟨levelBreak_eq_of_plainBreak feed ownFeed here, inner⟩, left⟩

/-! ## Unique reading -/

/-- Whether a node ends in front of some characters, or its first child starts there. -/
def EndsOpening (rest : List Char) : Prop := ∃ more, rest = ')' :: more ∨ rest = '\n' :: more

/-- What stands behind the kind of a node: its text, if it has one, and the rest. -/
def behindKind (text : Option String) (rest : List Char) : List Char :=
  match text with
  | none => rest
  | some own => ' ' :: '"' :: ((Literal.content own.toList).map plainBreak ++ '"' :: rest)

variable {indent kind otherKind : String} {text otherText field otherField : Option String}
  {rest otherRest : List Char}

/-- The characters that open a node, with a line feed for every line break. -/
theorem map_plainBreak_opening (named : isName kind = true) (text : Option String)
    (rest : List Char) :
    (opening kind text).toList.map plainBreak ++ rest =
      '(' :: (kind.toList ++ behindKind text rest) := by
  obtain ⟨_, _, _, _, continues⟩ := exists_of_isName named
  have kept : kind.toList.map plainBreak = kind.toList :=
    map_plainBreak fun char member => isLineBreak_of_isNameChar (continues char member)
  have marks : plainBreak '(' = '(' ∧ plainBreak ' ' = ' ' ∧ plainBreak '"' = '"' := by decide
  cases text with
  | none => simp [opening, behindKind, kept, marks]
  | some own => simp [opening, behindKind, Literal.toList_encode, kept, marks]

/-- No character of a name stands behind the kind of a node. -/
theorem stops_behindKind (text : Option String) (ends : EndsOpening rest) :
    ∀ char ∈ (behindKind text rest).head?, OutlinePiece.isNameChar char = false := by
  cases text with
  | none =>
    obtain ⟨more, rfl | rfl⟩ := ends
    · rintro _ ⟨⟩
      exact OutlinePiece.isNameChar_of_ascii (by decide)
    · rintro _ ⟨⟩
      exact OutlinePiece.isNameChar_of_ascii (by decide)
  | some own =>
    rintro _ ⟨⟩
    exact OutlinePiece.isNameChar_of_ascii (by decide)

/-- The opening of a node is told from what stands behind it. -/
theorem opening_append_inj (named : isName kind = true) (otherNamed : isName otherKind = true)
    (ends : EndsOpening rest) (otherEnds : EndsOpening otherRest)
    (same : kind.toList ++ behindKind text rest =
      otherKind.toList ++ behindKind otherText otherRest) :
    kind = otherKind ∧ text.map levelText = otherText.map levelText ∧ rest = otherRest := by
  obtain ⟨sameKind, behind⟩ := name_append_inj named otherNamed (stops_behindKind text ends)
    (stops_behindKind otherText otherEnds) same
  refine ⟨sameKind, ?_⟩
  cases text with
  | none =>
    cases otherText with
    | none => exact ⟨rfl, behind⟩
    | some own =>
      -- a node that ends here has no text
      obtain ⟨more, rfl | rfl⟩ := ends
      · exact absurd (List.cons.inj behind).1 (by decide)
      · exact absurd (List.cons.inj behind).1 (by decide)
  | some own =>
    cases otherText with
    | none =>
      obtain ⟨more, rfl | rfl⟩ := otherEnds
      · exact absurd (List.cons.inj behind).1 (by decide)
      · exact absurd (List.cons.inj behind).1 (by decide)
    | some other =>
      obtain ⟨alike, left⟩ := content_append_inj (List.cons.inj (List.cons.inj behind).2).2
      exact ⟨congrArg (some ∘ String.ofList) alike, left⟩

/-- The characters of a field name and the colon behind it. -/
theorem toList_label {name : String} (named : isName name = true) :
    (label (some name)).toList = name.toList ++ [':', ' '] := by
  obtain ⟨first, more, spelled, _, _⟩ := exists_of_isName named
  have nonempty : name.isEmpty = false := by
    rw [Bool.eq_false_iff]
    intro empty
    rw [String.isEmpty_iff.mp empty] at spelled
    cases spelled
  simp [label, nonempty]

theorem map_plainBreak_label {name : String} (named : isName name = true) (rest : List Char) :
    (label (some name)).toList.map plainBreak ++ rest = name.toList ++ ':' :: ' ' :: rest := by
  have marks : [':', ' '].map plainBreak = [':', ' '] := by decide
  rw [toList_label named, List.map_append, map_plainBreak (isLine_name named), marks,
    List.append_assoc]
  rfl

/-- The field name in front of a node is told from the node. -/
theorem label_append_inj (named : ∀ name ∈ field, isName name = true)
    (otherNamed : ∀ name ∈ otherField, isName name = true)
    (same : (label field).toList.map plainBreak ++ '(' :: rest =
      (label otherField).toList.map plainBreak ++ '(' :: otherRest) :
    field = otherField ∧ rest = otherRest := by
  -- a field name does not start with the parenthesis of a node
  have apart : ∀ {name : String} {some none : List Char}, isName name = true →
      (label (.some name)).toList.map plainBreak ++ some ≠ '(' :: none := by
    intro name some none valid equal
    obtain ⟨first, more, spelled, starts, _⟩ := exists_of_isName valid
    rw [map_plainBreak_label valid, spelled] at equal
    obtain rfl : first = '(' := (List.cons.inj equal).1
    exact absurd starts (by decide)
  cases field with
  | none =>
    cases otherField with
    | none => exact ⟨rfl, (List.cons.inj same).2⟩
    | some name => exact absurd same.symm (apart (otherNamed name rfl))
  | some name =>
    cases otherField with
    | none => exact absurd same (apart (named name rfl))
    | some other =>
      rw [map_plainBreak_label (named name rfl),
        map_plainBreak_label (otherNamed other rfl)] at same
      have colon : ∀ rest : List Char, ∀ char ∈ (':' :: ' ' :: rest).head?,
          OutlinePiece.isNameChar char = false := by
        rintro _ _ ⟨⟩
        exact OutlinePiece.isNameChar_of_ascii (by decide)
      obtain ⟨rfl, behind⟩ := name_append_inj (named name rfl) (otherNamed other rfl) (colon _)
        (colon _) same
      exact ⟨rfl, (List.cons.inj (List.cons.inj (List.cons.inj behind).2).2).2⟩

/-- The characters of a node on lines of its own, with a line feed for every line break. -/
theorem map_plainBreak_prettyLines (indent : String) (level : Nat) (outline : Outline)
    (rest : List Char) :
    (fed (prettyLines indent level outline)).map plainBreak ++ rest =
      '\n' :: ((padding indent level).toList.map plainBreak ++
        ((label outline.field).toList.map plainBreak ++
          ((opening outline.kind outline.text).toList.map plainBreak ++
            ((fed (prettyChildren indent (level + 1) outline.children)).map plainBreak ++
              ')' :: rest)))) := by
  obtain ⟨kind, text, field, children⟩ := outline
  have marks : plainBreak '\n' = '\n' ∧ plainBreak ')' = ')' := by decide
  rw [prettyLines, fed_closeLast]
  simp [fed, marks]

/-- Behind the opening of a node, it ends or a child starts on a new line. -/
theorem endsOpening_prettyChildren (indent : String) (level : Nat) (children : List Outline)
    (rest : List Char) :
    EndsOpening ((fed (prettyChildren indent level children)).map plainBreak ++ ')' :: rest) := by
  cases children with
  | nil => exact ⟨rest, .inl rfl⟩
  | cons child others =>
    rw [prettyChildren, fed_append, List.map_append, List.append_assoc, map_plainBreak_prettyLines]
    exact ⟨_, .inr rfl⟩

mutual

/-- A node is told from what stands behind it, up to the kinds of line breaks in its texts. -/
theorem prettyLines_append_inj (indent : String) : ∀ (outline other : Outline),
    outline.Everywhere HasNames → other.Everywhere HasNames →
    ∀ (level : Nat) {rest otherRest : List Char},
    (fed (prettyLines indent level outline)).map plainBreak ++ rest =
      (fed (prettyLines indent level other)).map plainBreak ++ otherRest →
    outline.levelled = other.levelled ∧ rest = otherRest
  | ⟨kind, text, field, children⟩, ⟨otherKind, otherText, otherField, others⟩, named, otherNamed,
      level, rest, otherRest, same => by
    cases named with
    | node here inside =>
    cases otherNamed with
    | node otherHere otherInside =>
    rw [map_plainBreak_prettyLines, map_plainBreak_prettyLines] at same
    -- the label, the opening and the children are told one after the other
    have labels := List.append_cancel_left (List.cons.inj same).2
    rw [map_plainBreak_opening here.kind, map_plainBreak_opening otherHere.kind] at labels
    obtain ⟨rfl, openings⟩ := label_append_inj here.field otherHere.field labels
    obtain ⟨rfl, texts, behind⟩ := opening_append_inj here.kind otherHere.kind
      (endsOpening_prettyChildren indent _ children rest)
      (endsOpening_prettyChildren indent _ others otherRest) openings
    obtain ⟨below, left⟩ := prettyChildren_append_inj indent children others inside otherInside
      (level + 1) behind
    simp only at texts
    exact ⟨by rw [levelled, levelled, texts, below], left⟩

theorem prettyChildren_append_inj (indent : String) : ∀ (children others : List Outline),
    (∀ child ∈ children, child.Everywhere HasNames) →
    (∀ child ∈ others, child.Everywhere HasNames) →
    ∀ (level : Nat) {rest otherRest : List Char},
    (fed (prettyChildren indent level children)).map plainBreak ++ ')' :: rest =
      (fed (prettyChildren indent level others)).map plainBreak ++ ')' :: otherRest →
    levelledAll children = levelledAll others ∧ rest = otherRest
  | [], [], _, _, _, _, _, same => ⟨rfl, (List.cons.inj same).2⟩
  | [], other :: others, _, _, level, rest, otherRest, same => by
    -- a node that ends here has no child
    rw [prettyChildren, prettyChildren, fed_append, List.map_append, List.append_assoc,
      map_plainBreak_prettyLines] at same
    exact absurd (List.cons.inj same).1 (by decide)
  | child :: children, [], _, _, level, rest, otherRest, same => by
    rw [prettyChildren, prettyChildren, fed_append, List.map_append, List.append_assoc,
      map_plainBreak_prettyLines] at same
    exact absurd (List.cons.inj same).1 (by decide)
  | child :: children, other :: others, named, otherNamed, level, rest, otherRest, same => by
    obtain ⟨here, inside⟩ := List.forall_mem_cons.mp named
    obtain ⟨otherHere, otherInside⟩ := List.forall_mem_cons.mp otherNamed
    rw [prettyChildren, prettyChildren, fed_append, fed_append, List.map_append, List.map_append,
      List.append_assoc, List.append_assoc] at same
    obtain ⟨first, behind⟩ := prettyLines_append_inj indent child other here otherHere level same
    obtain ⟨below, left⟩ := prettyChildren_append_inj indent children others inside otherInside
      level behind
    exact ⟨by rw [levelledAll, levelledAll, first, below], left⟩

end

/-! ## What is made alike -/

/-- Line breaks that are made alike become the same line feed. -/
theorem encodeChar_levelBreak (char : Char) :
    (Literal.encodeChar (levelBreak char)).map plainBreak =
      (Literal.encodeChar char).map plainBreak := by
  unfold levelBreak
  split
  · next stray =>
    obtain ⟨breaks, feed⟩ := Bool.and_eq_true_iff.mp stray
    -- a stray break is written as it is, and so is the carriage return
    have plain : Literal.encodeChar char = [char] := by
      rcases Literal.encodeChar_cases char with ⟨letter, _, _, _, escapes⟩ | ⟨plain, _⟩
      · unfold Literal.encodeChar
        rw [if_neg, if_neg, if_neg (of_decide_eq_true feed), if_neg]
        all_goals
          rintro rfl
          exact absurd breaks (by decide)
      · exact plain
    rw [plain, List.map_singleton, plainBreak_of_break breaks]
    decide
  · rfl

theorem content_levelText (text : String) :
    (Literal.content (levelText text).toList).map plainBreak =
      (Literal.content text.toList).map plainBreak := by
  rw [levelText, String.toList_ofList, Literal.content, Literal.content, List.flatMap_map,
    List.map_flatMap, List.map_flatMap]
  exact List.flatMap_congr fun char _ => encodeChar_levelBreak char

theorem opening_levelText (kind : String) (text : Option String) :
    (opening kind (text.map levelText)).toList.map plainBreak =
      (opening kind text).toList.map plainBreak := by
  cases text with
  | none => rfl
  | some own => simp [opening, Literal.toList_encode, content_levelText]

mutual

/-- With a line feed for every line break, an outline is rendered as the levelled one. -/
theorem prettyLines_levelled (indent : String) : ∀ (outline : Outline) (level : Nat),
    (fed (prettyLines indent level outline.levelled)).map plainBreak =
      (fed (prettyLines indent level outline)).map plainBreak
  | ⟨kind, text, field, children⟩, level => by
    have below := prettyChildren_levelled indent children (level + 1)
    rw [levelled, prettyLines, prettyLines, fed_closeLast, fed_closeLast]
    simp only [fed, List.flatMap_cons, String.toList_append, List.map_append, List.map_cons,
      opening_levelText] at below ⊢
    rw [below]

theorem prettyChildren_levelled (indent : String) : ∀ (children : List Outline) (level : Nat),
    (fed (prettyChildren indent level (levelledAll children))).map plainBreak =
      (fed (prettyChildren indent level children)).map plainBreak
  | [], _ => rfl
  | child :: others, level => by
    rw [levelledAll, prettyChildren, prettyChildren, fed_append, fed_append, List.map_append,
      List.map_append, prettyLines_levelled indent child level,
      prettyChildren_levelled indent others level]

end

/-- Whether no line break but the line feed stands in the text of an outline. -/
def HasOnlyFeeds (outline : Outline) : Prop :=
  ∀ own ∈ outline.text, ∀ char ∈ own.toList, isLineBreak char = true → char = '\n'

/-- A text without line breaks to be made alike is told from every other one. -/
theorem eq_of_levelText {text other : String}
    (feeds : ∀ char ∈ text.toList, isLineBreak char = true → char = '\n')
    (same : levelText text = levelText other) : text = other := by
  have kept : text.toList.map levelBreak = text.toList := by
    refine (List.map_congr_left fun char member => ?_).trans (List.map_id _)
    refine if_neg fun stray => ?_
    obtain ⟨breaks, other⟩ := Bool.and_eq_true_iff.mp stray
    exact of_decide_eq_true other (feeds char member breaks)
  have spelled : text.toList = other.toList.map levelBreak := by
    rw [← kept]
    exact String.ofList_inj.mp same
  have otherKept : other.toList.map levelBreak = other.toList := by
    refine (List.map_congr_left fun char member => ?_).trans (List.map_id _)
    refine if_neg fun stray => ?_
    -- it would be a carriage return in the first text
    have level : levelBreak char = '\r' := if_pos stray
    have inside : '\r' ∈ text.toList := by
      rw [spelled, ← level]
      exact List.mem_map_of_mem member
    exact absurd (feeds '\r' inside (by decide)) (by decide)
  exact String.ext (spelled.trans otherKept)

mutual

/-- An outline without line breaks to be made alike is told from every other one. -/
theorem eq_of_levelled : ∀ (outline other : Outline), outline.Everywhere HasOnlyFeeds →
    outline.levelled = other.levelled → outline = other
  | ⟨kind, text, field, children⟩, ⟨otherKind, otherText, otherField, others⟩, feeds, same => by
    cases feeds with
    | node here inside =>
    simp only [levelled, Outline.mk.injEq] at same
    obtain ⟨rfl, texts, rfl, below⟩ := same
    rw [eq_of_levelledAll children others inside below]
    cases text with
    | none =>
      cases otherText with
      | none => rfl
      | some own => cases texts
    | some own =>
      cases otherText with
      | none => cases texts
      | some other => rw [eq_of_levelText (here own rfl) (Option.some.inj texts)]

theorem eq_of_levelledAll : ∀ (children others : List Outline),
    (∀ child ∈ children, child.Everywhere HasOnlyFeeds) →
    levelledAll children = levelledAll others → children = others
  | [], [], _, _ => rfl
  | [], _ :: _, _, same => nomatch same
  | _ :: _, [], _, same => nomatch same
  | child :: children, other :: others, feeds, same => by
    obtain ⟨here, inside⟩ := List.forall_mem_cons.mp feeds
    obtain ⟨first, below⟩ := List.cons.inj same
    rw [eq_of_levelled child other here first, eq_of_levelledAll children others inside below]

end

/-! ## Rendered outlines cut into lines -/

/-- No line feed stands in a name. -/
theorem feed_not_mem_name {name : String} (named : isName name = true) : '\n' ∉ name.toList :=
  fun feed => absurd (isLine_name named '\n' feed) (by decide)

/-- No line feed stands in the content of a literal. -/
theorem feed_not_mem_content (chars : List Char) : '\n' ∉ Literal.content chars := by
  intro member
  obtain ⟨char, _, inside⟩ := List.mem_flatMap.mp member
  rcases Literal.encodeChar_cases char with ⟨letter, _, spelled, feed, _⟩ | ⟨spelled, _, _, feed, _⟩
  · rw [spelled, List.mem_cons, List.mem_singleton] at inside
    exact inside.elim (by decide) (fun same => feed same.symm)
  · rw [spelled, List.mem_singleton] at inside
    exact feed inside.symm

/-- No line feed stands in an indentation made of a text without one. -/
theorem feed_not_mem_padding (inLine : '\n' ∉ indent.toList) (level : Nat) :
    '\n' ∉ (padding indent level).toList := by
  rw [padding, String.toList_join]
  intro member
  obtain ⟨own, copies, inside⟩ := List.mem_flatMap.mp member
  rw [(List.mem_replicate.mp copies).2] at inside
  exact inLine inside

/-- No line feed stands in the field name of a node and the colon behind it. -/
theorem feed_not_mem_label (named : ∀ name ∈ field, isName name = true) :
    '\n' ∉ (label field).toList := by
  cases field with
  | none => exact List.not_mem_nil
  | some name =>
    rw [toList_label (named name rfl), List.mem_append, not_or]
    exact ⟨feed_not_mem_name (named name rfl), by decide⟩

/-- The opening of a node is closed. -/
theorem isClosed_opening (named : isName kind = true) (text : Option String) :
    IsClosed (opening kind text).toList := by
  obtain ⟨first, more, spelled, _, continues⟩ := exists_of_isName named
  have own := feed_not_mem_name named
  cases text with
  | none =>
    -- the last character of the kind ends the line
    have nonempty : kind.toList ≠ [] := by rw [spelled]; exact List.cons_ne_nil _ _
    refine ⟨by simp [opening, own], '(' :: kind.toList.dropLast, kind.toList.getLast nonempty, ?_,
      isLineBreak_of_isNameChar (continues _ (List.getLast_mem nonempty))⟩
    simp [opening, List.dropLast_append_getLast nonempty]
  | some text =>
    refine ⟨by simp [opening, own, Literal.toList_encode, feed_not_mem_content],
      '(' :: (kind.toList ++ ' ' :: '"' :: Literal.content text.toList), '"', ?_, by decide⟩
    simp [opening, Literal.toList_encode]

/-- A line that opens a node is closed. -/
theorem isClosed_headLine (inLine : '\n' ∉ indent.toList) (named : outline.HasNames)
    (level : Nat) : IsClosed (outline.headLine indent level).toList := by
  obtain ⟨noFeed, front, last, ends, plain⟩ := isClosed_opening named.kind outline.text
  refine ⟨?_, (padding indent level).toList ++ (label outline.field).toList ++ front,
    last, ?_, plain⟩
  · simp only [headLine, String.toList_append, List.mem_append, not_or]
    exact ⟨⟨feed_not_mem_padding inLine level, feed_not_mem_label named.field⟩, noFeed⟩
  · rw [headLine, String.toList_append, String.toList_append, ends, List.append_assoc]
    simp only [List.append_assoc]

/-- The lines of an outline are closed. -/
theorem isClosed_prettyLines (inLine : '\n' ∉ indent.toList)
    (named : outline.Everywhere HasNames) (level : Nat) :
    ∀ line ∈ prettyLines indent level outline, IsClosed line.toList := by
  refine forall_mem_prettyLines indent ?_ outline
    (named.mono fun inner names level => isClosed_headLine inLine names level) level
  rintro line ⟨noFeed, _⟩
  refine ⟨?_, line.toList, ')', String.toList_append, by decide⟩
  rw [String.toList_append, List.mem_append, not_or]
  exact ⟨noFeed, by decide⟩

theorem prettyLines_ne_nil (indent : String) (level : Nat) (outline : Outline) :
    prettyLines indent level outline ≠ [] := by
  obtain ⟨kind, text, field, children⟩ := outline
  rw [prettyLines]
  cases prettyChildren indent (level + 1) children <;> simp [closeLast]

/-- A rendered outline is cut at all line breaks. -/
theorem textLines_pretty (inLine : '\n' ∉ indent.toList) (named : outline.Everywhere HasNames) :
    textLines (outline.pretty indent) =
      (feedLines ((outline.pretty indent).toList.map plainBreak)).map String.ofList := by
  have nonempty : (prettyLines indent 0 outline).map String.toList ≠ [] := fun empty =>
    prettyLines_ne_nil indent 0 outline (List.map_eq_nil_iff.mp empty)
  rw [textLines, pretty, String.toList_intercalate]
  exact congrArg _ (breakLines_intercalate nonempty
    (List.forall_mem_map.mpr (isClosed_prettyLines inLine named 0)))

/-- The characters of a rendered outline, with a line feed in front and for every line break. -/
theorem cons_map_plainBreak_pretty (indent : String) (outline : Outline) :
    '\n' :: (outline.pretty indent).toList.map plainBreak =
      (fed (prettyLines indent 0 outline)).map plainBreak := by
  rw [← cons_intercalate (prettyLines_ne_nil indent 0 outline), List.map_cons,
    plainBreak_of_break (by decide)]
  rfl

/-- Two rendered outlines have the same lines exactly if they differ in nothing but the kinds of
line breaks in their texts. -/
theorem textLines_pretty_eq_iff (inLine : '\n' ∉ indent.toList)
    (named : outline.Everywhere HasNames) (otherNamed : other.Everywhere HasNames) :
    textLines (outline.pretty indent) = textLines (other.pretty indent) ↔
      outline.levelled = other.levelled := by
  rw [textLines_pretty inLine named, textLines_pretty inLine otherNamed,
    List.map_inj_right fun _ _ => String.ofList_inj.mp, feedLines_inj,
    ← List.cons_inj_right '\n', cons_map_plainBreak_pretty, cons_map_plainBreak_pretty]
  constructor
  · intro same
    exact (prettyLines_append_inj indent outline other named otherNamed 0
      (congrArg (· ++ []) same)).1
  · intro same
    rw [← prettyLines_levelled, same, prettyLines_levelled]

end Outline

end DocGrammar
