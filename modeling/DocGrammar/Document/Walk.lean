import DocGrammar.Document.Basic
import DocGrammar.Rule.Basic
import DocGrammar.Text.Search

/-! # Walking the sections of a document

A grammar reads a document section by section. When a section fails, its diagnostic is reported
and the section is dropped together with the sections below it; the walk goes on at the next
section of the same or a shallower level, or at a deeper one that the grammar wants to see.

* **`Section.isBelow`** — whether a section is dropped together with the one before it.
* **`walkSections`** — the nodes of all sections that succeed.
* **`nextSibling`** — where the walk goes on behind a failed section. -/

namespace DocGrammar

/-! ## The state of a walk -/

/-- The state of a walk: that of the parse, and what the grammar remembers between sections. -/
structure WalkState (μ : Type) where
  /-- The state of the parse. -/
  session : Session
  /-- What the grammar remembers. -/
  memory : μ

/-- A computation on the state of a walk. The state outlives a failure. -/
abbrev WalkM (μ : Type) : Type → Type := EStateM Failure (WalkState μ)

namespace WalkM

variable {μ α : Type}

/-- A walk as a computation on the state of the parse, with what is remembered at its start. -/
def run (walk : WalkM μ α) (memory : μ) : SessionM α := fun session =>
  match EStateM.run walk ⟨session, memory⟩ with
  | .ok value final => .ok value final.session
  | .error failure final => .error failure final.session

/-- Fails with a cause at a span. -/
def refuse (cause : Cause) (span : Span) : WalkM μ α :=
  throw (.refused ⟨cause, span⟩)

/-- The name of the document. -/
def file : WalkM μ String := do
  return (← get).session.file

/-- The value of a computation that may be refused. -/
def ofExcept (result : Except Diagnostic α) : WalkM μ α :=
  match result with
  | .ok value => pure value
  | .error diagnostic => throw (.refused diagnostic)

/-- The value of a rule on some tokens. The nesting depth of the parse goes on in the rule. -/
def runRule (rule : Rule α) (tokens : List Token) : WalkM μ α := fun state =>
  match Cursor.ofTokens? tokens with
  | none => .error .exhausted state
  | some cursor =>
    match rule ⟨cursor, state.session.nesting⟩ with
    | .ok value final =>
      .ok value { state with session := { state.session with nesting := final.nesting } }
    | .error failure final =>
      .error failure { state with session := { state.session with nesting := final.nesting } }

end WalkM

/-! ## Walking -/

variable {μ : Type}

/-- Whether `later` is dropped together with the failed section `part` before it: it is deeper,
`part` is not the preamble, and the grammar does not want to resume there. -/
def Section.isBelow (resume : Section → Bool) (part later : Section) : Bool :=
  part.heading.isSome && part.level < later.level && !resume later

/-- The nodes of a section. A failure that the section carries wins over the rule. -/
def sectionNodes (rule : Section → WalkM μ (List Node)) (part : Section) : WalkM μ (List Node) :=
  match part.failure with
  | some diagnostic => throw (.refused diagnostic)
  | none => rule part

/-- Reports that `part` failed and that `dropped` sections below it are left out. -/
def reportDropped (part : Section) (diagnostic : Diagnostic) (dropped : Nat) : WalkM μ Unit :=
  modify fun state =>
    let reported := state.session.report diagnostic
    { state with
      session := if dropped = 0 then reported else reported.log (.skipping dropped part.title) }

/-- The nodes of some sections, in order, without those that fail and the sections below them. -/
def walkSections (rule : Section → WalkM μ (List Node)) (resume : Section → Bool) :
    List Section → WalkM μ (List Node)
  | [] => pure []
  | part :: others => fun state =>
    match sectionNodes rule part state with
    | .ok nodes next =>
      match walkSections rule resume others next with
      | .ok more final => .ok (nodes ++ more) final
      | .error failure final => .error failure final
    | .error failure next =>
      match failure.recoverable? with
      | none => .error failure next
      | some diagnostic =>
        let below := part.isBelow resume
        (do
          reportDropped part diagnostic (others.takeWhile below).length
          walkSections rule resume (others.dropWhile below)) next
termination_by parts => parts.length
decreasing_by
  · simp
  · exact Nat.lt_succ_of_le (List.dropWhile_sublist _).length_le

/-- The index of the section at which the walk goes on behind a failed section. -/
def nextSibling (resume : Section → Bool) (parts : List Section) (index : Nat) : Nat :=
  match parts[index]? with
  | none => index + 1
  | some part => index + 1 + ((parts.drop (index + 1)).takeWhile (part.isBelow resume)).length

/-! ## The root of a tree -/

/-- The node of a directive: the grammar name at its first occurrence in the line. -/
def Directive.node (directive : Directive) : Node :=
  let span := directive.token.span
  let offset := (offsetOf? directive.grammar.toList directive.token.value.toList).getD 0
  let column : Int := offset + 1
  let nameSpan : Span :=
    ⟨span.file, ⟨span.start.line, column⟩,
      ⟨span.start.line, column + directive.grammar.length - 1⟩⟩
  .spanning .shebang [.leafOf .grammarName directive.grammar nameSpan] (some span)

/-- The root of a document tree: the directive, if there is one, before the nodes of the sections.
It spans the whole document. -/
def Document.root (document : Document) (body : List Node) : Node :=
  .spanning .sourceFile ((document.directive.map Directive.node).toList ++ body)
    (some ⟨document.file, Position.origin, document.finish.stop⟩)

end DocGrammar
