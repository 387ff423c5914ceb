import DocGrammar.Text.CodeRange

/-! # White space

The white space of documents is the Unicode class together with the four information separators
`U+001C` … `U+001F`. Trimming, the blank lines of a document and the blank pattern class of the
highlighter all use this one predicate. -/

namespace DocGrammar

/-- The intervals of white-space code points, in increasing order. -/
def blankRanges : List CodeRange :=
  [(0x9, 0xd), (0x1c, 0x20), (0x85, 0x85), (0xa0, 0xa0), (0x1680, 0x1680), (0x2000, 0x200a),
    (0x2028, 0x2029), (0x202f, 0x202f), (0x205f, 0x205f), (0x3000, 0x3000)]

/-- Whether a character is white space. -/
def isBlank (char : Char) : Bool :=
  CodeRange.covers blankRanges char

end DocGrammar
