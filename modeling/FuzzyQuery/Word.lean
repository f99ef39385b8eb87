import FuzzyQuery.Text

/-!
# Words

A word is a run of one or more ASCII letters and digits. Words are the terms of a query that need
no quotes.
-/

namespace FuzzyQuery

def isWordChar (c : Char) : Bool := c.isAlphanum

namespace Text

def isWord (t : Text) : Bool := !t.isEmpty && t.all isWordChar

def isWordLetter : Text → Bool
  | [c] => isWordChar c
  | _ => false

theorem isWord_iff (t : Text) : t.isWord = true ↔ t ≠ [] ∧ ∀ c ∈ t, isWordChar c = true := by
  simp [isWord]

end Text

end FuzzyQuery
