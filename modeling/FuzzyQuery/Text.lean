/-!
# Text

Text is a list of code points, so that every length, offset and position counts code points.
-/

namespace FuzzyQuery

abbrev Text := List Char

namespace Text

def spaces (n : Nat) : Text := List.replicate n ' '

def ofNat (n : Nat) : Text := Nat.toDigits 10 n

def ofInt : Int → Text
  | .ofNat n => ofNat n
  | .negSucc n => '-' :: ofNat (n + 1)

/-- Pads on the left up to `width` characters; a longer text is left as it is. -/
def alignRight (width : Nat) (t : Text) : Text := spaces (width - t.length) ++ t

def alignLeft (width : Nat) (t : Text) : Text := t ++ spaces (width - t.length)

def hex (width n : Nat) : Text :=
  let digits := Nat.toDigits 16 n
  List.replicate (width - digits.length) '0' ++ digits

/-- The leftmost place at which `pattern` stands in the text. -/
def indexOf? : Text → Text → Option Nat
  | [], pattern => if pattern = [] then some 0 else none
  | c :: t, pattern =>
    if pattern.isPrefixOf (c :: t) then some 0 else (indexOf? t pattern).map (· + 1)

def unlines (lines : List Text) : Text := lines.flatMap (· ++ ['\n'])

@[simp] theorem length_spaces (n : Nat) : (spaces n).length = n := List.length_replicate

end Text

end FuzzyQuery
