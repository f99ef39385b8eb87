import FuzzyQuery.Text
import FuzzyQuery.Text.Ranges

/-!
# Blank characters

A character is blank when Unicode gives it the property White_Space or it is one of the four
information separators U+001C to U+001F.
-/

namespace FuzzyQuery

def blankRanges : Ranges :=
  [(0x09, 0x0D), (0x1C, 0x20), (0x85, 0x85), (0xA0, 0xA0), (0x1680, 0x1680), (0x2000, 0x200A),
   (0x2028, 0x2029), (0x202F, 0x202F), (0x205F, 0x205F), (0x3000, 0x3000)]

def isBlank (c : Char) : Bool := blankRanges.contains c

namespace Text

def strip (t : Text) : Text :=
  ((t.dropWhile isBlank).reverse.dropWhile isBlank).reverse

end Text

end FuzzyQuery
