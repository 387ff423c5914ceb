import DocGrammar.Proofs.Tokens.Spelled
import DocGrammar.Proofs.Trees.Outlines

/-! # Strings in rendered trees

The lexer may yield any string at all: there is an escape for every character that cannot stand
between the marks of a string. A rendered tree shows a string as a literal, which has fewer escapes.
So the tree is read back exactly if the string holds no control characters other than line feeds
and tabs.

* **`Outline.read_leaf`** — what the outline of a leaf with a text is read as.
* **`Lexeme.isWritable_of_escape?`** — the escapes whose characters literals can hold.
* **`stringLiteral_reads_back`** — which strings of the lexer are read back from rendered trees. -/

namespace DocGrammar

/-- The line of a leaf is read back, unless literals cannot hold the text of the leaf. -/
theorem Outline.read_leaf {kind : String} (named : isFieldName kind = true) (text : String) :
    read (⟨kind, some text, none, []⟩ : Outline).line =
      if text.toList.all Literal.isWritable then .ok ⟨kind, some text, none, []⟩
      else .error .malformedLiteral := by
  by_cases held : text.toList.all Literal.isWritable = true
  · rw [if_pos held]
    refine read_line (.node named ?_ nofun (List.forall_mem_nil _)) rfl
    rintro _ ⟨⟩
    exact List.all_eq_true.mp held
  · rw [if_neg held]
    -- a character that no literal can hold is written as it is, and refused when it is read
    have control : ∃ char ∈ text.toList, Literal.isWritable char = false := by
      simpa using held
    have cut : OutlinePiece.all (⟨kind, some text, none, []⟩ : Outline).line.toList =
        .ok [.opening, .kind kind, .literal (Literal.content text.toList), .closing] := by
      have closed : OutlinePiece.all [')'] = .ok [.closing] :=
        OutlinePiece.all_closing (by rw [OutlinePiece.all])
      have spelled : (⟨kind, some text, none, []⟩ : Outline).line.toList =
          (opening kind (some text)).toList ++ [')'] := by
        simp [line, childLines]
      rw [spelled]
      exact all_opening (some text) named (endsName_cons (by decide) _) closed
    rw [read, cut]
    show ofPieces _ _ _ = _
    simp [ofPieces, Literal.decode?_content_eq_none control]

/-- Literals can hold what the escapes of strings stand for, but for the carriage return and the
null character. -/
theorem Lexeme.isWritable_of_escape? {letter char : Char} (known : escape? letter = some char) :
    Literal.isWritable char = true ↔ letter ≠ 'r' ∧ letter ≠ '0' := by
  unfold escape? at known
  split at known <;> cases known <;> decide

/-- A string that is spelled with escapes is read as a single token. The tree of this token,
rendered with its text, is read back if the string holds no control characters other than line
feeds and tabs; otherwise its literal is malformed. -/
theorem stringLiteral_reads_back (keywords : KeywordTable) (file : String) (start : Position)
    (value : String) :
    (codeTokens keywords file start (String.ofList ('"' :: spelledBody value.toList))).map
        (List.map Token.said) = .ok [(.stringLit, value), (.endOfInput, "")] ∧
    Outline.read ("(string_literal " ++ Literal.encode value ++ ")") =
      if value.toList.all Literal.isWritable then .ok ⟨"string_literal", some value, none, []⟩
      else .error .malformedLiteral := by
  constructor
  · have spelled : Spelled .stringLit value.toList ('"' :: spelledBody value.toList) :=
      (Spelling.quoted '"' _ _ (.inl rfl) (.flatMap _ unescapes_spelledChar)).spelled
        (show KeywordTable.isVerbatim [] = true from rfl)
    have read := codeTokens_of_spelled spelled keywords file start
    rwa [String.ofList_toList] at read
  · have line : (⟨"string_literal", some value, none, []⟩ : Outline).line =
        "(string_literal " ++ Literal.encode value ++ ")" := by
      show "(" ++ "string_literal" ++ " " ++ Literal.encode value ++ "" ++ ")" = _
      rw [String.append_empty]
      rfl
    rw [← line]
    exact Outline.read_leaf (NodeKind.isFieldName_name .stringLiteral) value

/-- The lexer yields a string with a carriage return, but the tree of this string is not read back
when it is rendered with its text. -/
theorem stringLiteral_with_return :
    (codeTokens .none "<input>" .origin "\"a\\rb\"").map (List.map Token.said) =
      .ok [(.stringLit, "a\rb"), (.endOfInput, "")] ∧
    "(string_literal " ++ Literal.encode "a\rb" ++ ")" = "(string_literal \"a\rb\")" ∧
    Outline.read "(string_literal \"a\rb\")" = .error .malformedLiteral := by
  refine ⟨by decide +kernel, by decide, ?_⟩
  exact Outline.read_leaf (NodeKind.isFieldName_name .stringLiteral) "a\rb"

end DocGrammar
