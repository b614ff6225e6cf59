import IconCompiler.Text.RangeTable

/-!
# White space

The White_Space property, and trimming. The byte order mark and the zero-width space are no white
space.
-/

namespace IconCompiler.Text

/-- The code points with the White_Space property, in increasing order. -/
def whiteSpaceRanges : List (Nat × Nat) := [
  (0x0009, 0x000D), (0x0020, 0x0020), (0x0085, 0x0085), (0x00A0, 0x00A0), (0x1680, 0x1680),
  (0x2000, 0x200A), (0x2028, 0x2029), (0x202F, 0x202F), (0x205F, 0x205F), (0x3000, 0x3000)]

/-- Whether a character has the White_Space property. -/
def isWhiteSpace (c : Char) : Bool :=
  RangeTable.contains whiteSpaceRanges c

/-- Whether a text has no character but white space. -/
def isBlank (cs : List Char) : Bool :=
  cs.all isWhiteSpace

/-- A text without the white space at its end. -/
def trimEnd (cs : List Char) : List Char :=
  (cs.reverse.dropWhile isWhiteSpace).reverse

/-- A text without the white space at both ends. -/
def trim (cs : List Char) : List Char :=
  trimEnd (cs.dropWhile isWhiteSpace)

end IconCompiler.Text
