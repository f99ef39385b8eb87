import FuzzyQuery.Text
import FuzzyQuery.Text.LetterCase

/-!
# Lower case

Full lower-casing by the rules of Unicode: one character may become two, and a capital sigma
becomes a final sigma at the end of a word.
-/

namespace FuzzyQuery

def isCased (c : Char) : Bool := casedRanges.contains c

def isCaseIgnorable (c : Char) : Bool := caseIgnorableRanges.contains c

def lowerCaseOf (c : Char) : Text :=
  if c.toNat < 0x80 then [c.toLower]
  else if c = '\u0130' then ['i', '\u0307']
  else [((lowerCaseRuns.findSome? (·.lower? c.toNat)).map Char.ofNat).getD c]

namespace Text

def continuesWord (t : Text) : Bool := (t.dropWhile isCaseIgnorable).head?.any isCased

/-- `inWord` says whether the last character before the text that is not ignored was cased. -/
def lowerCaseAfter (inWord : Bool) : Text → Text
  | [] => []
  | c :: t =>
    (if c = '\u03A3' then [if inWord && !continuesWord t then '\u03C2' else '\u03C3']
      else lowerCaseOf c) ++
    lowerCaseAfter (if isCaseIgnorable c then inWord else isCased c) t

def lowerCase (t : Text) : Text := lowerCaseAfter false t

end Text

end FuzzyQuery
