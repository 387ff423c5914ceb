import DocGrammar.Diagnostic.Basic

/-! # The state of a parse

A parse keeps the nesting depth, the diagnostics of the sections that it dropped, and a log of
what it did.

* **`Nesting`** — a depth and its limit, with **`Nesting.enter?`** and **`Nesting.leave`**.
* **`Session`** — the state of one parse, with **`Session.report`**.
* **`Failure`** — how a rule ends without a result. -/

namespace DocGrammar

/-! ## Nesting -/

/-- The nesting depth of a parse and its limit. -/
structure Nesting where
  /-- The greatest depth that is allowed. -/
  limit : Nat
  /-- The depth reached. -/
  depth : Nat
  deriving DecidableEq, Repr

namespace Nesting

/-- The number of levels that may still be entered. -/
def room (nesting : Nesting) : Nat := nesting.limit - nesting.depth

/-- The nesting one level deeper, if the limit allows it. -/
def enter? (nesting : Nesting) : Option Nesting :=
  if nesting.depth < nesting.limit then some { nesting with depth := nesting.depth + 1 } else none

/-- The nesting one level up. -/
def leave (nesting : Nesting) : Nesting := { nesting with depth := nesting.depth - 1 }

/-- Leaving a level that was entered restores the nesting. -/
theorem leave_of_enter? {nesting entered : Nesting} (h : nesting.enter? = some entered) :
    entered.leave = nesting := by
  unfold enter? at h
  split at h <;> simp_all [leave]
  subst h
  rfl

/-- Entering a level takes one away from the room. -/
theorem room_of_enter? {nesting entered : Nesting} (h : nesting.enter? = some entered) :
    nesting.room = entered.room + 1 := by
  unfold enter? at h
  split at h <;> simp at h
  subst h
  simp only [room]
  omega

/-- No level can be entered exactly when there is no room. -/
theorem enter?_eq_none_iff (nesting : Nesting) : nesting.enter? = none ↔ nesting.room = 0 := by
  simp only [enter?, room]
  split <;> simp <;> omega

end Nesting

/-! ## Failures -/

/-- How a rule ends without a result. -/
inductive Failure where
  /-- The input is refused. -/
  | refused (diagnostic : Diagnostic)
  /-- The rule ran out of its own resources. -/
  | exhausted
  deriving DecidableEq, Repr

namespace Failure

/-- The diagnostic of a failure that a section can be dropped for. -/
def recoverable? : Failure → Option Diagnostic
  | refused diagnostic => if diagnostic.kind.isRecoverable then some diagnostic else none
  | exhausted => none

/-- The diagnostic of a failure that ended the parse of a file. -/
def diagnostic (file : String) : Failure → Diagnostic
  | refused diagnostic => diagnostic
  | exhausted => ⟨.exhausted, Span.fileStart file⟩

end Failure

/-! ## Sessions -/

/-- Something that a parse did, for its log. -/
inductive Event where
  /-- A grammar was selected for a file. -/
  | parsing (file grammar : String)
  /-- A diagnostic was reported. -/
  | recovering (diagnostic : Diagnostic)
  /-- Sections below a failed one were left out. -/
  | skipping (count : Nat) (title : String)
  deriving DecidableEq, Repr

/-- The state of one parse. -/
structure Session where
  /-- The name of the document. -/
  file : String
  /-- The nesting depth. -/
  nesting : Nesting
  /-- The diagnostics reported so far, in order. -/
  diagnostics : List Diagnostic
  /-- What was done so far, in order. -/
  events : List Event
  deriving DecidableEq, Repr

namespace Session

/-- The state before a parse with the given limit, which must admit some nesting. -/
def start (file : String) (limit : Int) : Except Cause Session :=
  if limit < 1 then .error (.invalidLimit limit) else .ok ⟨file, ⟨limit.toNat, 0⟩, [], []⟩

/-- The state with one more event. -/
def log (session : Session) (event : Event) : Session :=
  { session with events := session.events ++ [event] }

/-- The state with one more diagnostic. -/
def report (session : Session) (diagnostic : Diagnostic) : Session :=
  { session with
    diagnostics := session.diagnostics ++ [diagnostic]
    events := session.events ++ [.recovering diagnostic] }

end Session

/-- A computation on the state of a parse. The state outlives a failure. -/
abbrev SessionM : Type → Type := EStateM Failure Session

end DocGrammar
