import FuzzyQuery.Text
import FuzzyQuery.Text.Columns

/-!
# Text on a terminal

A terminal shows lines of columns. A tab leads to the next column whose number is a multiple of
eight, and characters that would only move the cursor are left out.
-/

namespace FuzzyQuery

/-- Bell, backspace, vertical tab, form feed and carriage return. -/
def movesCursor (c : Char) : Bool := c ∈ ['\x07', '\x08', '\x0B', '\x0C', '\r']

namespace Text

def expandTabs (column : Nat) : Text → Text
  | [] => []
  | c :: t =>
    if c = '\t' then
      let width := 8 - column % 8
      spaces width ++ expandTabs (column + width) t
    else if c = '\n' then c :: expandTabs 0 t
    else c :: expandTabs (column + columnsOf c) t

def display (t : Text) : Text := expandTabs 0 (t.filter fun c => !movesCursor c)

end Text

end FuzzyQuery
