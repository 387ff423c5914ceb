import DocGrammar.Proofs.Text.Literal
import DocGrammar.Proofs.Tokens.Characters
import DocGrammar.Tree.OutlineReader

/-! # Outlines are read back

An outline is written on one line or on many, and both ways write the same pieces with white space
between them. Reading cuts a text into its pieces and builds the outline from these, so every way of
writing an outline is undone.

* **`Outline.pieces`** — the pieces that an outline is written with.
* **`Outline.read_line`**, **`Outline.read_pretty`** — an outline is read back from its text.
* **`Node.outline_reads_back`** — what a rendered tree is read as, and what that says of the
  tree. -/

namespace DocGrammar

/-! ## Names -/

/-- Whether a name has only letters, digits, underscores and hyphens of ASCII and starts with a
letter or an underscore. -/
def isFieldName (name : String) : Bool :=
  match name.toList with
  | [] => false
  | first :: others => (isAsciiLetter first || first = '_') &&
      others.all fun char => isAsciiLetter char || isAsciiDigit char || char = '_' || char = '-'

/-- Every kind has such a name. -/
theorem NodeKind.isFieldName_name (kind : NodeKind) : isFieldName kind.name = true := by
  cases kind <;> decide +kernel

namespace OutlinePiece

variable {char : Char} {chars name rest blanks : List Char} {others : List OutlinePiece}

/-- The characters of a name. -/
theorem exists_of_isFieldName {name : String} (valid : isFieldName name = true) :
    ∃ first more, name.toList = first :: more ∧ isNameStart first = true ∧
      ∀ char ∈ more, isNameChar char = true := by
  unfold isFieldName at valid
  split at valid
  · cases valid
  · next first more spelled =>
    obtain ⟨starts, continues⟩ := Bool.and_eq_true_iff.mp valid
    refine ⟨first, more, spelled, starts, fun char member => ?_⟩
    have inside := List.all_eq_true.mp continues char member
    simp only [isNameChar, isWordChar, isAlphanumeric, isLetter, isDigit, Bool.or_eq_true,
      decide_eq_true_eq, beq_iff_eq] at inside ⊢
    rcases inside with ((letter | digit) | underscore) | hyphen
    · exact .inl (.inl (.inl (.inl (.inl letter))))
    · exact .inl (.inl (.inl (.inr (.inl digit))))
    · exact .inl (.inr underscore)
    · exact .inr hyphen

/-- What starts a name is neither white space nor a mark. -/
theorem isNameStart_facts (starts : isNameStart char = true) :
    isBlank char = false ∧ char ≠ '(' ∧ char ≠ ')' ∧ char ≠ '"' := by
  have word : isWordChar char = true := by
    refine isWordChar_of_isWordStart ?_
    simp only [isNameStart, isWordStart, isLetter, Bool.or_eq_true, decide_eq_true_eq,
      beq_iff_eq] at starts ⊢
    exact starts.imp_left .inl
  refine ⟨isBlank_of_isWordChar word, ?_, ?_, ?_⟩ <;> rintro rfl <;>
    exact absurd starts (by decide)

/-! ## Cutting a text into pieces -/

theorem all_blank (blank : isBlank char = true) : all (char :: rest) = all rest := by
  rw [all, if_pos blank]

/-- White space before a piece is ignored. -/
theorem all_blanks (blank : ∀ char ∈ blanks, isBlank char = true) :
    all (blanks ++ rest) = all rest := by
  induction blanks with
  | nil => rfl
  | cons char blanks ih =>
    obtain ⟨here, below⟩ := List.forall_mem_cons.mp blank
    rw [List.cons_append, all_blank here, ih below]

/-- A piece is read in front of the others. -/
theorem all_cons {piece : OutlinePiece} (extra : Nat) (other : isBlank char = false)
    (scans : scan? char rest = some (piece, extra)) (reads : all (rest.drop extra) = .ok others) :
    all (char :: rest) = .ok (piece :: others) := by
  rw [all, if_neg (by rw [other]; exact Bool.false_ne_true), scans]
  simp only [reads]
  rfl

theorem all_opening (reads : all rest = .ok others) :
    all ('(' :: rest) = .ok (.opening :: others) :=
  all_cons 0 (by decide) rfl reads

theorem all_closing (reads : all rest = .ok others) :
    all (')' :: rest) = .ok (.closing :: others) :=
  all_cons 0 (by decide) rfl reads

/-- Among the ASCII characters only letters, digits, underscores and hyphens continue a name. -/
theorem isNameChar_of_ascii (ascii : char.toNat < 128) : isNameChar char =
    (isAsciiLetter char || isAsciiDigit char || char == '_' || char = '-') := by
  rw [isNameChar, isWordChar_of_ascii ascii]

/-- The characters that continue a name end in front of the first other one. -/
theorem takeWhile_name (continues : ∀ char ∈ chars, isNameChar char = true)
    (stops : ∀ char ∈ rest.head?, isNameChar char = false) :
    (chars ++ rest).takeWhile isNameChar = chars := by
  rw [List.takeWhile_append_of_pos continues]
  cases rest with
  | nil => simp
  | cons char rest =>
    have stop := stops char rfl
    rw [List.takeWhile_cons_of_neg (by rw [stop]; exact Bool.false_ne_true), List.append_nil]

/-- A name with a colon behind it is a field name. -/
theorem all_field {name : String} (valid : isFieldName name = true)
    (reads : all rest = .ok others) :
    all (name.toList ++ ':' :: rest) = .ok (.field name :: others) := by
  obtain ⟨first, more, spelled, starts, continues⟩ := exists_of_isFieldName valid
  obtain ⟨other, opening, closing, quote⟩ := isNameStart_facts starts
  have whole : (more ++ ':' :: rest).takeWhile isNameChar = more :=
    takeWhile_name continues fun char first => by
      cases first
      exact isNameChar_of_ascii (by decide)
  have named : String.ofList (first :: more) = name := by rw [← spelled, String.ofList_toList]
  rw [spelled]
  refine all_cons (more.length + 1) other ?_ ?_
  · unfold scan?
    simp [opening, closing, quote, starts, whole, named]
  · simpa using reads

/-- A name with neither a colon nor more of a name behind it is a kind. -/
theorem all_kind {name : String} (valid : isFieldName name = true)
    (stops : ∀ char ∈ rest.head?, isNameChar char = false ∧ char ≠ ':')
    (reads : all rest = .ok others) :
    all (name.toList ++ rest) = .ok (.kind name :: others) := by
  obtain ⟨first, more, spelled, starts, continues⟩ := exists_of_isFieldName valid
  obtain ⟨other, opening, closing, quote⟩ := isNameStart_facts starts
  have whole : (more ++ rest).takeWhile isNameChar = more :=
    takeWhile_name continues fun char first => (stops char first).1
  have named : String.ofList (first :: more) = name := by rw [← spelled, String.ofList_toList]
  have uncolon : ¬rest.head? = some ':' := fun colon => (stops ':' colon).2 rfl
  rw [spelled]
  refine all_cons more.length other ?_ ?_
  · unfold scan?
    simp [opening, closing, quote, starts, whole, named, uncolon]
  · simpa using reads

/-- The content of a literal ends at its closing quote. -/
theorem literalContent?_content (chars rest : List Char) :
    literalContent? (Literal.content chars ++ '"' :: rest) = some (Literal.content chars) := by
  induction chars with
  | nil => rfl
  | cons char chars ih =>
    rw [Literal.content, List.flatMap_cons, ← Literal.content]
    rcases Literal.encodeChar_cases char with ⟨letter, _, spelled, feed, _⟩ |
      ⟨spelled, backslash, quote, _, _⟩
    · rw [spelled, List.cons_append, List.cons_append, List.cons_append, List.cons_append,
        List.nil_append, literalContent?, if_neg feed, ih, Option.map_some]
    · rw [spelled, List.singleton_append, List.cons_append, literalContent?, ih, Option.map_some]
      · exact quote
      · exact fun same _ => backslash same
      · exact fun _ _ same _ => backslash same

theorem all_literal (text : String) (reads : all rest = .ok others) :
    all ((Literal.encode text).toList ++ rest) =
      .ok (.literal (Literal.content text.toList) :: others) := by
  rw [Literal.toList_encode, List.append_assoc, List.cons_append]
  refine all_cons ((Literal.content text.toList).length + 1) (by decide) ?_ ?_
  · simp [scan?, literalContent?_content]
  · simpa using reads

end OutlinePiece

/-! ## The pieces of an outline -/

namespace Outline

/-- The piece of a field name that is stated. -/
def fieldPieces (field : Option String) : List OutlinePiece :=
  (field.map OutlinePiece.field).toList

/-- The piece of a text that is stated. -/
def textPieces (text : Option String) : List OutlinePiece :=
  (text.map fun text => .literal (Literal.content text.toList)).toList

mutual

/-- The pieces that an outline is written with, its field name apart. -/
def pieces : Outline → List OutlinePiece
  | ⟨kind, text, _, children⟩ =>
    .opening :: .kind kind :: (textPieces text ++ (childPieces children ++ [.closing]))

/-- The pieces that outlines are written with as children. -/
def childPieces : List Outline → List OutlinePiece
  | [] => []
  | ⟨kind, text, field, children⟩ :: others =>
    fieldPieces field ++ (pieces ⟨kind, text, field, children⟩ ++ childPieces others)

end

/-- Whether an outline can be written: its kinds and field names are names, and literals can hold
its texts. -/
inductive IsWritable : Outline → Prop
  /-- The parts of a node can be written, and so can its children. -/
  | node {kind : String} {text field : Option String} {children : List Outline}
      (named : isFieldName kind = true)
      (texts : ∀ own ∈ text, ∀ char ∈ own.toList, Literal.isWritable char = true)
      (fields : ∀ name ∈ field, isFieldName name = true)
      (inside : ∀ child ∈ children, IsWritable child) : IsWritable ⟨kind, text, field, children⟩

variable {outline : Outline} {children outer : List Outline} {text field : Option String}
  {kind indent : String} {rest : List Char} {others more : List OutlinePiece}

/-! ## Building an outline from its pieces -/

/-- The text of a node is read into it. -/
theorem ofPieces_text (kind : String) (field : Option String)
    (texts : ∀ own ∈ text, ∀ char ∈ own.toList, Literal.isWritable char = true) :
    ofPieces .content (⟨kind, none, field, []⟩ :: outer) (textPieces text ++ more) =
      ofPieces .content (⟨kind, text, field, []⟩ :: outer) more := by
  cases text with
  | none => rfl
  | some own =>
    show ofPieces .content _ (.literal (Literal.content own.toList) :: more) = _
    rw [ofPieces]
    simp [Literal.decode?_content (texts own rfl)]

/-- A child is read behind its field name. -/
theorem ofPieces_field (inner outline : Outline) (field : Option String) :
    ofPieces .content (inner :: outer) (fieldPieces field ++ (outline.pieces ++ more)) =
      ofPieces (.node field) (inner :: outer) (outline.pieces ++ more) := by
  obtain ⟨kind, text, own, children⟩ := outline
  cases field with
  | none => simp [fieldPieces, pieces, ofPieces]
  | some name => simp [fieldPieces, ofPieces]

mutual

/-- What is read from the pieces of a node, up to its closing parenthesis. -/
theorem ofPieces_pieces : ∀ (outline : Outline), outline.IsWritable →
    ∀ (field : Option String) (outer : List Outline) (more : List OutlinePiece),
    ofPieces (.node field) outer (outline.pieces ++ more) =
      ofPieces .content ({ outline with field := field } :: outer) (.closing :: more)
  | ⟨kind, text, _, children⟩, writable, field, outer, more => by
    cases writable with
    | node named texts fields inside =>
    have children := ofPieces_childPieces children inside ⟨kind, text, field, []⟩ outer
      (.closing :: more)
    simp only [pieces, List.cons_append, List.append_assoc, List.nil_append, ofPieces,
      ofPieces_text kind field texts]
    exact children

/-- The children of an open node are read behind those that it has. -/
theorem ofPieces_childPieces : ∀ (children : List Outline),
    (∀ child ∈ children, child.IsWritable) →
    ∀ (inner : Outline) (outer : List Outline) (more : List OutlinePiece),
    ofPieces .content (inner :: outer) (childPieces children ++ more) =
      ofPieces .content ({ inner with children := inner.children ++ children } :: outer) more
  | [], _, ⟨_, _, _, _⟩, outer, more => by
    rw [childPieces, List.nil_append, List.append_nil]
  | ⟨kind, text, field, children⟩ :: others, writable, inner, outer, more => by
    obtain ⟨here, below⟩ := List.forall_mem_cons.mp writable
    have child := ofPieces_pieces ⟨kind, text, field, children⟩ here field (inner :: outer)
      (childPieces others ++ more)
    have further := ofPieces_childPieces others below
      (inner.addChild ⟨kind, text, field, children⟩) outer more
    rw [childPieces, List.append_assoc, List.append_assoc, ofPieces_field, child, ofPieces, further,
      addChild, List.append_assoc]
    rfl

end

/-- An outline without a field name is built from its pieces. -/
theorem ofPieces_root (writable : outline.IsWritable) (root : outline.field = none) :
    ofPieces (.node none) [] outline.pieces = .ok outline := by
  have whole := ofPieces_pieces outline writable none [] []
  rw [List.append_nil] at whole
  rw [whole, ofPieces]
  obtain ⟨kind, text, field, children⟩ := outline
  cases root
  rfl

/-! ## Cutting a rendered outline -/

/-- Whether a kind ends in front of some characters. -/
def EndsName (rest : List Char) : Prop :=
  ∀ char ∈ rest.head?, OutlinePiece.isNameChar char = false ∧ char ≠ ':'

theorem endsName_cons {char : Char} (stops : char ∈ [' ', ')', '\n']) (rest : List Char) :
    EndsName (char :: rest) := by
  have every : ([' ', ')', '\n'].all fun char => decide (char.toNat < 128) &&
      !(isAsciiLetter char || isAsciiDigit char || char == '_' || char = '-') &&
      char != ':') = true := by decide
  have own := List.all_eq_true.mp every char stops
  simp only [Bool.and_eq_true, Bool.not_eq_true', bne_iff_ne, decide_eq_true_eq] at own
  obtain ⟨⟨ascii, outside⟩, colon⟩ := own
  intro next first
  cases Option.some.inj first
  exact ⟨(OutlinePiece.isNameChar_of_ascii ascii).trans outside, colon⟩

/-- The opening of a node is cut into its parenthesis, its kind and its text. -/
theorem all_opening (text : Option String) (named : isFieldName kind = true) (ends : EndsName rest)
    (reads : OutlinePiece.all rest = .ok others) :
    OutlinePiece.all ((opening kind text).toList ++ rest) =
      .ok (.opening :: .kind kind :: (textPieces text ++ others)) := by
  cases text with
  | none =>
    have spelled : (opening kind none).toList ++ rest = '(' :: (kind.toList ++ rest) := by
      simp [opening]
    rw [spelled]
    exact OutlinePiece.all_opening (OutlinePiece.all_kind named ends reads)
  | some own =>
    have spelled : (opening kind (some own)).toList ++ rest =
        '(' :: (kind.toList ++ ' ' :: ((Literal.encode own).toList ++ rest)) := by
      simp [opening]
    have behind : OutlinePiece.all (' ' :: ((Literal.encode own).toList ++ rest)) =
        .ok (textPieces (some own) ++ others) := by
      rw [OutlinePiece.all_blank (by decide)]
      exact OutlinePiece.all_literal own reads
    rw [spelled]
    exact OutlinePiece.all_opening
      (OutlinePiece.all_kind named (endsName_cons (by decide) _) behind)

/-- A field name before a node is cut off. -/
theorem all_label (fields : ∀ name ∈ field, isFieldName name = true)
    (reads : OutlinePiece.all rest = .ok others) :
    OutlinePiece.all ((label field).toList ++ rest) = .ok (fieldPieces field ++ others) := by
  cases field with
  | none => exact reads
  | some name =>
    have valid := fields name rfl
    have nonempty : name.isEmpty = false := by
      rw [Bool.eq_false_iff]
      intro empty
      rw [String.isEmpty_iff.mp empty] at valid
      exact absurd valid (by decide)
    have spelled : (label (some name)).toList ++ rest = name.toList ++ ':' :: ' ' :: rest := by
      simp [label, nonempty]
    rw [spelled]
    exact OutlinePiece.all_field valid ((OutlinePiece.all_blank (by decide)).trans reads)

/-! ### On one line -/

theorem endsName_childLines (children : List Outline) (rest : List Char) :
    EndsName ((childLines children).toList ++ ')' :: rest) := by
  cases children with
  | nil => exact endsName_cons (by decide) _
  | cons child others =>
    obtain ⟨kind, text, field, inner⟩ := child
    simp only [childLines, String.toList_append, List.append_assoc]
    exact endsName_cons (by decide) _

mutual

/-- An outline on one line is cut into its pieces. -/
theorem all_line : ∀ (outline : Outline), outline.IsWritable →
    ∀ {rest : List Char} {others : List OutlinePiece}, OutlinePiece.all rest = .ok others →
    OutlinePiece.all (outline.line.toList ++ rest) = .ok (outline.pieces ++ others)
  | ⟨kind, text, _, children⟩, writable, rest, others, reads => by
    cases writable with
    | node named texts fields inside =>
    have behind := all_childLines children inside (OutlinePiece.all_closing reads)
    have whole := all_opening text named (endsName_childLines children rest) behind
    simpa [line, pieces] using whole

/-- Children on one line are cut into their pieces. -/
theorem all_childLines : ∀ (children : List Outline), (∀ child ∈ children, child.IsWritable) →
    ∀ {rest : List Char} {others : List OutlinePiece}, OutlinePiece.all rest = .ok others →
    OutlinePiece.all ((childLines children).toList ++ rest) = .ok (childPieces children ++ others)
  | [], _, _, _, reads => reads
  | ⟨kind, text, field, children⟩ :: more, writable, rest, others, reads => by
    obtain ⟨here, below⟩ := List.forall_mem_cons.mp writable
    have behind := all_line ⟨kind, text, field, children⟩ here (all_childLines more below reads)
    cases here with
    | node named texts fields inside =>
    have whole := all_label fields behind
    rw [← OutlinePiece.all_blank (show isBlank ' ' = true from by decide)] at whole
    simpa [childLines, childPieces] using whole

end

/-! ### On many lines -/

/-- The characters of some lines, each behind a line feed. -/
def fed (lines : List String) : List Char := lines.flatMap fun line => '\n' :: line.toList

theorem fed_append (lines others : List String) : fed (lines ++ others) = fed lines ++ fed others :=
  List.flatMap_append

/-- Lines that are joined are the lines behind line feeds, the first of which is left out. -/
theorem cons_intercalate {lines : List String} (nonempty : lines ≠ []) :
    '\n' :: ("\n".intercalate lines).toList = fed lines := by
  induction lines with
  | nil => exact absurd rfl nonempty
  | cons line others ih =>
    cases others with
    | nil => simp [fed]
    | cons next others =>
      have behind := ih (List.cons_ne_nil _ _)
      rw [String.intercalate_cons_cons]
      simp only [String.toList_append]
      show _ = ('\n' :: line.toList) ++ fed (next :: others)
      rw [← behind]
      simp

theorem fed_closeLast (first : String) (lines : List String) :
    fed (closeLast (first :: lines)) = fed (first :: lines) ++ [')'] := by
  induction lines generalizing first with
  | nil => simp [closeLast, fed]
  | cons next lines ih =>
    have behind := ih next
    simp only [closeLast, fed, List.flatMap_cons, List.append_assoc] at behind ⊢
    rw [behind]

theorem isBlank_padding (blank : ∀ char ∈ indent.toList, isBlank char = true) (level : Nat) :
    ∀ char ∈ (padding indent level).toList, isBlank char = true := by
  intro char member
  rw [padding, String.toList_join] at member
  obtain ⟨own, copied, inside⟩ := List.mem_flatMap.mp member
  rw [List.eq_of_mem_replicate copied] at inside
  exact blank char inside

/-- Behind the opening of a node, a line ends or the node does. -/
theorem endsName_fed (lines : List String) (rest : List Char) :
    EndsName (fed lines ++ ')' :: rest) := by
  cases lines with
  | nil => exact endsName_cons (by decide) _
  | cons line others => exact endsName_cons (by decide) _

mutual

/-- An outline on many lines is cut into its pieces. -/
theorem all_prettyLines (blank : ∀ char ∈ indent.toList, isBlank char = true) :
    ∀ (outline : Outline), outline.IsWritable → ∀ (level : Nat) {rest : List Char}
      {others : List OutlinePiece}, OutlinePiece.all rest = .ok others →
    OutlinePiece.all (fed (prettyLines indent level outline) ++ rest) =
      .ok (fieldPieces outline.field ++ (outline.pieces ++ others))
  | ⟨kind, text, field, children⟩, writable, level, rest, others, reads => by
    cases writable with
    | node named texts fields inside =>
    have behind := all_prettyChildren blank children inside (level + 1)
      (OutlinePiece.all_closing reads)
    have start := all_label fields (all_opening text named (endsName_fed _ rest) behind)
    rw [← OutlinePiece.all_blanks (isBlank_padding blank level),
      ← OutlinePiece.all_blank (show isBlank '\n' = true from by decide)] at start
    rw [prettyLines, fed_closeLast]
    simpa [fed, pieces] using start

/-- Children on many lines are cut into their pieces. -/
theorem all_prettyChildren (blank : ∀ char ∈ indent.toList, isBlank char = true) :
    ∀ (children : List Outline), (∀ child ∈ children, child.IsWritable) →
    ∀ (level : Nat) {rest : List Char} {others : List OutlinePiece},
    OutlinePiece.all rest = .ok others →
    OutlinePiece.all (fed (prettyChildren indent level children) ++ rest) =
      .ok (childPieces children ++ others)
  | [], _, _, _, _, reads => reads
  | ⟨kind, text, field, children⟩ :: more, writable, level, rest, others, reads => by
    obtain ⟨here, below⟩ := List.forall_mem_cons.mp writable
    have whole := all_prettyLines blank ⟨kind, text, field, children⟩ here level
      (all_prettyChildren blank more below level reads)
    rw [prettyChildren, fed_append, List.append_assoc, whole, childPieces]
    simp

end

/-! ## Reading outlines -/

/-- An outline is read back from its line. -/
theorem read_line (writable : outline.IsWritable) (root : outline.field = none) :
    read outline.line = .ok outline := by
  have cut := all_line outline writable (show OutlinePiece.all [] = .ok [] by rw [OutlinePiece.all])
  rw [List.append_nil, List.append_nil] at cut
  rw [read, cut]
  exact ofPieces_root writable root

/-- An outline is read back from its lines, whatever white space indents them. -/
theorem read_pretty (writable : outline.IsWritable) (root : outline.field = none)
    (blank : ∀ char ∈ indent.toList, isBlank char = true) :
    read (outline.pretty indent) = .ok outline := by
  have cut := all_prettyLines blank outline writable 0
    (show OutlinePiece.all [] = .ok [] by rw [OutlinePiece.all])
  have nonempty : prettyLines indent 0 outline ≠ [] := by
    obtain ⟨kind, text, field, children⟩ := outline
    rw [prettyLines]
    cases prettyChildren indent (0 + 1) children <;> simp [closeLast]
  rw [List.append_nil, List.append_nil, ← cons_intercalate nonempty,
    OutlinePiece.all_blank (by decide), root] at cut
  rw [read, pretty, cut]
  exact ofPieces_root writable root

/-! ## Places in trees -/

/-- The part of an outline at the end of a path of child numbers. -/
def at? (outline : Outline) : List Nat → Option Outline
  | [] => some outline
  | index :: path => outline.children[index]?.bind fun child => child.at? path

/-- What an outline states about its root. -/
def statement (outline : Outline) : String × Option String × Option String :=
  (outline.kind, outline.text, outline.field)

end Outline

namespace Node

/-- The descendant of a node at the end of a path of child numbers. -/
def at? (node : Node) : List Nat → Option Node
  | [] => some node
  | index :: path => node.children[index]?.bind fun child => child.at? path

/-- What an outline with some detail has to state about a node. -/
def statement (detail : OutlineDetail) (isRoot : Bool) (node : Node) :
    String × Option String × Option String :=
  (node.kind.name, if detail.texts then node.text else none,
    if detail.fields && !isRoot then node.field else none)

variable {detail : OutlineDetail} {node : Node}

theorem childOutlines_eq (detail : OutlineDetail) (nodes : List Node) :
    childOutlines detail nodes = nodes.map (childOutline detail) := by
  induction nodes with
  | nil => rfl
  | cons node nodes ih => rw [childOutlines, ih, List.map_cons]

/-- The outline of a child has the parts that the child has, each with what is to be stated. -/
theorem statement_childOutline (detail : OutlineDetail) (node : Node) (path : List Nat) :
    ((childOutline detail node).at? path).map Outline.statement =
      (node.at? path).map (statement detail false) := by
  induction path generalizing node with
  | nil =>
    obtain ⟨kind, children, text, field, span⟩ := node
    simp [at?, Outline.at?, childOutline, statement, Outline.statement]
  | cons index path ih =>
    obtain ⟨kind, children, text, field, span⟩ := node
    simp only [at?, Outline.at?, childOutline, childOutlines_eq, List.getElem?_map]
    cases children[index]? with
    | none => rfl
    | some child => exact ih child

/-- An outline has the parts that the tree has, each with what is to be stated. -/
theorem statement_outline (detail : OutlineDetail) (node : Node) (path : List Nat) :
    ((node.outline detail).at? path).map Outline.statement =
      (node.at? path).map (statement detail path.isEmpty) := by
  cases path with
  | nil =>
    obtain ⟨kind, children, text, field, span⟩ := node
    simp [at?, Outline.at?, outline, childOutline, statement, Outline.statement]
  | cons index path => exact statement_childOutline detail node (index :: path)

/-! ## Outlines and their trees -/

mutual

/-- A tree is accepted by its outline in the place of a child. -/
theorem accepts_childOutline (detail : OutlineDetail) : ∀ node : Node,
    (childOutline detail node).accepts node = true
  | ⟨kind, children, text, field, span⟩ => by
    have inside := allAccept_childOutlines detail children
    have texts : Outline.agrees (if detail.texts then text else none) text = true := by
      cases detail.texts <;> simp [Outline.agrees]
    have fields : Outline.agrees (if detail.fields then field else none) field = true := by
      cases detail.fields <;> simp [Outline.agrees]
    simp [childOutline, Outline.accepts, inside, texts, fields]

theorem allAccept_childOutlines (detail : OutlineDetail) : ∀ nodes : List Node,
    Outline.allAccept (childOutlines detail nodes) nodes = true
  | [] => rfl
  | node :: others => by
    rw [childOutlines, Outline.allAccept, accepts_childOutline detail node,
      allAccept_childOutlines detail others]
    rfl

end

/-- A tree is accepted by its outline. -/
theorem accepts_outline (detail : OutlineDetail) (node : Node) :
    (node.outline detail).accepts node = true := by
  have accepted := accepts_childOutline detail node
  obtain ⟨kind, children, text, field, span⟩ := node
  simp only [outline, childOutline, Outline.accepts, Bool.and_eq_true] at accepted ⊢
  exact ⟨⟨accepted.1.1, rfl⟩, accepted.2⟩

/-- Whether the field name and the text of a node can be written in an outline. -/
structure IsPlain (node : Node) : Prop where
  /-- The field name, if there is one, is a name. -/
  fields : ∀ name ∈ node.field, isFieldName name = true
  /-- The text has no control characters other than line feeds and tabs. -/
  texts : ∀ text ∈ node.text, ∀ char ∈ text.toList, Literal.isWritable char = true

mutual

/-- The outline of a plain tree can be written. -/
theorem isWritable_childOutline (detail : OutlineDetail) : ∀ node : Node,
    (∀ inner ∈ node.walk, inner.IsPlain) → (childOutline detail node).IsWritable
  | ⟨kind, children, text, field, span⟩, plain => by
    obtain ⟨here, below⟩ := List.forall_mem_cons.mp plain
    refine .node kind.isFieldName_name ?_ ?_ (isWritable_childOutlines detail children below)
    · intro own stated
      split at stated
      · exact here.texts own stated
      · cases stated
    · intro name stated
      split at stated
      · exact here.fields name stated
      · cases stated

theorem isWritable_childOutlines (detail : OutlineDetail) : ∀ nodes : List Node,
    (∀ inner ∈ walkAll nodes, inner.IsPlain) →
    ∀ child ∈ childOutlines detail nodes, child.IsWritable
  | [], _ => List.forall_mem_nil _
  | node :: others, plain => by
    obtain ⟨here, below⟩ := List.forall_mem_append.mp plain
    exact List.forall_mem_cons.mpr
      ⟨isWritable_childOutline detail node here, isWritable_childOutlines detail others below⟩

end

theorem isWritable_outline (detail : OutlineDetail)
    (plain : ∀ inner ∈ node.walk, inner.IsPlain) : (node.outline detail).IsWritable := by
  have writable := isWritable_childOutline detail node plain
  obtain ⟨kind, children, text, field, span⟩ := node
  cases writable with
  | node named texts fields inside => exact .node named texts (fun _ none => nomatch none) inside

/-- **A rendered tree is read back.** The text on one line and the text on many are read as the same
outline. At every path it has a part exactly if the tree has a node there, and states its kind, its
text if texts are rendered, and its field name if field names are and it is not the root. The
outline accepts the tree, and is read back from its own text, however that is indented. -/
theorem outline_reads_back (node : Node) (detail : OutlineDetail) (indent : String)
    (plain : ∀ inner ∈ node.walk, inner.IsPlain)
    (blank : ∀ char ∈ indent.toList, isBlank char = true) :
    ∃ outline, Outline.read (node.outline detail).line = .ok outline ∧
      Outline.read ((node.outline detail).pretty indent) = .ok outline ∧
      (∀ path, (outline.at? path).map Outline.statement =
        (node.at? path).map (statement detail path.isEmpty)) ∧
      outline.accepts node = true ∧
      ∀ other : String, (∀ char ∈ other.toList, isBlank char = true) →
        Outline.read (outline.pretty other) = .ok outline :=
  have writable := isWritable_outline detail plain
  ⟨node.outline detail, Outline.read_line writable rfl, Outline.read_pretty writable rfl blank,
    statement_outline detail node, accepts_outline detail node,
    fun _ blank => Outline.read_pretty writable rfl blank⟩

/-- A name under a field, with a quote, a parenthesis and a line feed in its text, is read back. -/
theorem outline_reads_back_quoted :
    let name : Node := ⟨.identifier, [], some "a\"(b:\n", some "left", none⟩
    let node : Node := ⟨.sourceFile, [name], none, none, none⟩
    (∀ inner ∈ node.walk, inner.IsPlain) ∧ (∀ char ∈ "\t ".toList, isBlank char = true) ∧
      (node.outline ⟨true, true⟩).line = "(source_file left: (identifier \"a\\\"(b:\\n\"))" ∧
      ∃ outline, Outline.read (node.outline ⟨true, true⟩).line = .ok outline ∧
        Outline.read ((node.outline ⟨true, true⟩).pretty "\t ") = .ok outline ∧
        ((outline.at? [0]).map Outline.statement =
          some ("identifier", some "a\"(b:\n", some "left")) ∧
        outline.accepts node = true := by
  intro name node
  have plain : ∀ inner ∈ node.walk, inner.IsPlain := by
    refine List.forall_mem_cons.mpr ⟨⟨?_, ?_⟩, List.forall_mem_singleton.mpr ⟨?_, ?_⟩⟩
    · exact fun _ none => nomatch none
    · exact fun _ none => nomatch none
    · rintro _ ⟨⟩
      decide +kernel
    · rintro _ ⟨⟩
      exact List.all_eq_true.mp (by decide +kernel)
  have blank : ∀ char ∈ "\t ".toList, isBlank char = true :=
    List.all_eq_true.mp (by decide)
  obtain ⟨outline, line, pretty, states, accepts, _⟩ :=
    outline_reads_back node ⟨true, true⟩ "\t " plain blank
  exact ⟨plain, blank, by decide +kernel, outline, line, pretty, states [0], accepts⟩

end Node

end DocGrammar
