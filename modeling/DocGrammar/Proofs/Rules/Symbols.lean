import DocGrammar.Proofs.Rules.Heads
import DocGrammar.Proofs.Rules.Reading
import DocGrammar.Proofs.Tokens.Phrase
import DocGrammar.Proofs.Trees.Bare

/-! # Rules that read symbols

What a rule builds depends on what its tokens say, up to spans.

* **`Rule.ReadsSymbols`** — a rule reads whatever tokens say some symbols, wherever a token of some
  kinds stands behind them.
* **`Rule.reads_delimited`** — lists between brackets are read item by item. -/

namespace DocGrammar

open Rule RuleState

variable {keywords : KeywordTable}

namespace Rule

variable {α : Type}

/-- With at least `room` levels left, a rule reads whatever tokens say some symbols, in front of
tokens that start in some kinds, and its value is good. -/
def ReadsSymbols (rule : Rule α) (room : Nat) (symbols : List (Symbol keywords))
    (kinds : List TokenKind) (good : α → Prop) : Prop :=
  ∀ read rest, Says read symbols → StartsIn kinds rest → rule.Reads room read rest good

variable {rule : Rule α} {room less : Nat} {symbols : List (Symbol keywords)}
  {kinds fewer : List TokenKind} {good : α → Prop}

/-- What a rule reads it also reads with more room and in front of fewer kinds of tokens. -/
theorem ReadsSymbols.mono (reads : rule.ReadsSymbols less symbols kinds good)
    (enough : less ≤ room) (subset : fewer ⊆ kinds) :
    rule.ReadsSymbols room symbols fewer good :=
  fun read rest told starts =>
    (reads read rest told (starts.mono subset)).mono enough fun _ holds => holds

/-! ## Leaves -/

/-- A name is read as a leaf. -/
theorem reads_identifier (name : Identifier keywords) {token : Token}
    (tells : token.Tells (Symbol.name name)) (rest : List Token) :
    identifier.Reads room [token] rest (·.bare = .plainLeaf .identifier name.text) := by
  intro nonempty before nesting _
  have kind : token.kind = .identifier := tells.kind
  have value : token.value = name.text := tells.value
  simp [identifier, kind, nonempty, value]

/-- A comma is read. -/
theorem reads_comma {token : Token} (kind : token.kind = .comma) (rest : List Token) :
    comma.Reads room [token] rest fun _ => True := by
  intro nonempty before nesting _
  simp [comma, kind, nonempty]

/-! ## Lists between brackets -/

section Rounds

variable {close : TokenKind} {separator : Rule Unit} {item : Rule Node} {node : Node}
  {mark closing : Token} {read rest : List Token} {found : List Node}

/-- At the closing token a list is complete. -/
theorem reads_delimitedRound_done (closes : closing.kind = close) (rest : List Token)
    (found : List Node) :
    (delimitedRound close separator item found).Reads room [] (closing :: rest)
      (Round.IsDone (· = found)) := by
  intro _ before nesting _
  simp [delimitedRound, closes, Round.IsDone]

/-- The first round of a list reads an item. -/
theorem reads_delimitedRound_first (other : mark.kind ≠ close)
    (reads : item.Reads room (mark :: read) rest (·.bare = node)) :
    (delimitedRound close separator item []).Reads room (mark :: read) rest
      (Round.IsAgain fun next => ∃ value, next = [] ++ [value] ∧ value.bare = node) := by
  intro behind before nesting enough
  have reading := reads behind before nesting enough
  simp only [delimitedRound, List.cons_append] at reading ⊢
  simp [other]
  refine reading.mono ?_ fun _ _ fault => fault
  rintro value final ⟨holds, rfl⟩
  exact ⟨⟨value, rfl, holds⟩, by simp⟩

/-- Each later round of a list reads a separator and an item. -/
theorem reads_delimitedRound_next (nonempty : found ≠ []) (other : mark.kind ≠ close)
    (separates : separator.Reads room [mark] (read ++ rest) fun _ => True)
    (reads : item.Reads room read rest (·.bare = node)) :
    (delimitedRound close separator item found).Reads room (mark :: read) rest
      (Round.IsAgain fun next => ∃ value, next = found ++ [value] ∧ value.bare = node) := by
  intro behind before nesting enough
  simp only [delimitedRound, List.cons_append]
  simp [other, nonempty]
  refine separates.ensures (by simp [behind]) enough fun _ _ => ?_
  refine reads.ensures behind enough fun value holds => ?_
  exact ⟨⟨value, rfl, holds⟩, by simp⟩

end Rounds

variable {ι : Type} {spell : ι → List (Symbol keywords)} {node : ι → Node} {entry : ι}
  {entries : List ι} {close : TokenKind} {separator : Rule Unit} {item : Rule Node}
  {closing : Token} {read : List Token}

/-- Whether a rule reads each comma in front of one of some entries. -/
def Separates (separator : Rule Unit) (room : Nat) (spell : ι → List (Symbol keywords))
    (entries : List ι) : Prop :=
  ∀ token rest, token.kind = .comma →
    (∃ entry ∈ entries, ∃ read more, Says read (spell entry) ∧ rest = read ++ more) →
      separator.Reads room [token] rest fun _ => True

theorem Separates.tail (separates : Separates separator room spell (entry :: entries)) :
    Separates separator room spell entries := by
  rintro token rest kind ⟨entry, member, found⟩
  exact separates token rest kind ⟨entry, List.mem_cons_of_mem _ member, found⟩

/-- Behind an item stands the comma in front of the next one, or the closing token. -/
theorem startsIn_further
    (told : Says read ((entries.map spell).flatMap fun item => Symbol.comma :: item))
    (closes : closing.kind = close) (rest : List Token) :
    StartsIn [.comma, close] (read ++ closing :: rest) := by
  cases entries with
  | nil =>
    cases told
    exact startsIn_cons closes (by simp)
  | cons next entries =>
    rw [List.map_cons, List.flatMap_cons] at told
    exact (told.startsIn (by simp [Symbol.kind])).append _

/-- Where a list may be complete, its rounds find no further item. -/
theorem loopReads_complete (closes : closing.kind = close) (rest : List Token)
    (found : List Node) :
    LoopReads (delimitedRound close separator item) found room [] (closing :: rest)
      (fun values => values.map Node.bare = found.map Node.bare) :=
  (LoopReads.done (reads_delimitedRound_done closes rest found)).mono
    fun _ same => congrArg (List.map Node.bare) same

/-- Behind the first item of a list each further one stands behind a separator. -/
theorem loopReads_delimited (entries : List ι)
    (reads : ∀ entry ∈ entries,
      item.ReadsSymbols room (spell entry) [.comma, close] (·.bare = node entry))
    (separates : Separates separator room spell entries) (inner : close ≠ .comma)
    {read : List Token}
    (told : Says read ((entries.map spell).flatMap fun item => Symbol.comma :: item))
    (closes : closing.kind = close) (rest : List Token) (found : List Node)
    (nonempty : found ≠ []) :
    LoopReads (delimitedRound close separator item) found room read (closing :: rest)
      (fun values => values.map Node.bare = found.map Node.bare ++ entries.map node) := by
  induction entries generalizing read found with
  | nil =>
    cases told
    rw [List.map_nil, List.append_nil]
    exact loopReads_complete closes rest found
  | cons entry entries ih =>
    rw [List.map_cons, List.flatMap_cons, List.cons_append] at told
    obtain ⟨mark, more, rfl, tells, saysMore⟩ := told.of_cons
    obtain ⟨body, others, rfl, saysBody, saysOthers⟩ := saysMore.of_append
    have kind : mark.kind = .comma := tells.kind
    -- a comma is no closing bracket, so the round goes on
    have other : mark.kind ≠ close := by
      rw [kind]
      exact inner.symm
    have comma := separates mark (body ++ (others ++ closing :: rest)) kind
      ⟨entry, List.mem_cons_self, body, _, saysBody, rfl⟩
    have round := reads_delimitedRound_next nonempty other comma
      (reads entry List.mem_cons_self body _ saysBody (startsIn_further saysOthers closes rest))
    refine LoopReads.again (mark :: body) round (List.cons_ne_nil _ _) ?_
    rintro _ ⟨value, rfl, holds⟩
    have later := ih (fun entry member => reads entry (List.mem_cons_of_mem _ member))
      separates.tail saysOthers (found ++ [value]) (by simp)
    simpa [holds] using later

/-- A list between brackets is read item by item. -/
theorem reads_delimited (entries : List ι)
    (reads : ∀ entry ∈ entries,
      item.ReadsSymbols room (spell entry) [.comma, close] (·.bare = node entry))
    (separates : Separates separator room spell entries) (inner : close ≠ .comma)
    (starts : ∀ entry ∈ entries, ∃ first others,
      spell entry = first :: others ∧ first.kind ≠ close)
    (told : Says read (separated .comma (entries.map spell)))
    (closes : closing.kind = close) (rest : List Token) :
    (delimited close separator item).Reads room read (closing :: rest)
      (fun values => values.map Node.bare = entries.map node) := by
  refine LoopReads.loop ?_
  cases entries with
  | nil =>
    cases told
    exact loopReads_complete closes rest []
  | cons entry entries =>
    obtain ⟨body, others, rfl, saysBody, saysOthers⟩ := told.of_append
    have body' := reads entry List.mem_cons_self body _ saysBody
      (startsIn_further saysOthers closes rest)
    obtain ⟨first, symbols, spelled, other⟩ := starts entry List.mem_cons_self
    rw [spelled] at saysBody
    obtain ⟨head, tail, rfl, tells, _⟩ := saysBody.of_cons
    -- the first item is told from the closing bracket, so the round reads it
    have headKind : head.kind ≠ close := by
      rw [tells.kind]
      exact other
    refine LoopReads.again (head :: tail) (reads_delimitedRound_first headKind body')
      (List.cons_ne_nil _ _) ?_
    rintro _ ⟨value, rfl, holds⟩
    have later := loopReads_delimited entries
      (fun entry member => reads entry (List.mem_cons_of_mem _ member)) separates.tail inner
      saysOthers closes rest [value] (by simp)
    simpa [holds] using later

end Rule

end DocGrammar
