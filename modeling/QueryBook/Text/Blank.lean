import QueryBook.Text.Ranges

/-!
# Blank characters

White space in the wide sense: the ASCII blanks and the four information separators, the next-line
and no-break characters, and the Unicode spaces and line separators.
-/

namespace QueryBook.Text

/-- The blank code points. -/
def blankRanges : Ranges := [
  (0x9, 0xd), (0x1c, 0x20), (0x85, 0x85), (0xa0, 0xa0), (0x1680, 0x1680), (0x2000, 0x200a),
  (0x2028, 0x2029), (0x202f, 0x202f), (0x205f, 0x205f), (0x3000, 0x3000)]

/-- A blank character. -/
def isBlank (c : Char) : Bool := blankRanges.contains c.toNat

/-- `text` without the blanks at either end. -/
def trim (text : String) : String :=
  .ofList (((text.toList.dropWhile isBlank).reverse.dropWhile isBlank).reverse)

end QueryBook.Text
