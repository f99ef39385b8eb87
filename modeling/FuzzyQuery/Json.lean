import FuzzyQuery.Text

/-!
# JSON

Values are written over several lines, two columns deeper for every level, with the members of an
object in the order in which they are given. Text is written either as it stands or in ASCII.
-/

namespace FuzzyQuery

inductive Json where
  | text (value : Text)
  | number (value : Int)
  | bool (value : Bool)
  | array (items : List Json)
  | object (members : List (Text × Json))

namespace Json

inductive Repertoire where
  | ascii | unicode
  deriving DecidableEq

def escapeUnit (n : Nat) : Text := '\\' :: 'u' :: Text.hex 4 n

/-- The two units that stand for a code point above U+FFFF. -/
def surrogates (n : Nat) : Nat × Nat :=
  (0xD800 + (n - 0x10000) / 0x400, 0xDC00 + (n - 0x10000) % 0x400)

def escapeAscii (c : Char) : Text :=
  if c.toNat < 0x7F then [c]
  else if c.toNat < 0x10000 then escapeUnit c.toNat
  else escapeUnit (surrogates c.toNat).1 ++ escapeUnit (surrogates c.toNat).2

def escapeChar (repertoire : Repertoire) (c : Char) : Text :=
  if c = '"' ∨ c = '\\' then ['\\', c]
  else if c = '\x08' then ['\\', 'b']
  else if c = '\t' then ['\\', 't']
  else if c = '\n' then ['\\', 'n']
  else if c = '\x0C' then ['\\', 'f']
  else if c = '\r' then ['\\', 'r']
  else if c.toNat < 0x20 then escapeUnit c.toNat
  else
    match repertoire with
    | .ascii => escapeAscii c
    | .unicode => [c]

def quote (repertoire : Repertoire) (t : Text) : Text :=
  '"' :: t.flatMap (escapeChar repertoire) ++ ['"']

def newline (depth : Nat) : Text := '\n' :: Text.spaces (2 * depth)

variable (repertoire : Repertoire)

mutual

def writeAt (depth : Nat) : Json → Text
  | text value => quote repertoire value
  | number value => Text.ofInt value
  | bool true => "true".toList
  | bool false => "false".toList
  | array [] => ['[', ']']
  | array (x :: xs) =>
    '[' :: newline (depth + 1) ++ writeAt (depth + 1) x ++ writeItems (depth + 1) xs ++
      newline depth ++ [']']
  | object [] => ['\x7b', '\x7d']
  | object ((key, x) :: xs) =>
    '\x7b' :: newline (depth + 1) ++ quote repertoire key ++ [':', ' '] ++
      writeAt (depth + 1) x ++ writeMembers (depth + 1) xs ++ newline depth ++ ['\x7d']

def writeItems (depth : Nat) : List Json → Text
  | [] => []
  | x :: xs => ',' :: newline depth ++ writeAt depth x ++ writeItems depth xs

def writeMembers (depth : Nat) : List (Text × Json) → Text
  | [] => []
  | (key, x) :: xs =>
    ',' :: newline depth ++ quote repertoire key ++ [':', ' '] ++ writeAt depth x ++
      writeMembers depth xs

end

def write (x : Json) : Text := writeAt repertoire 0 x

end Json

end FuzzyQuery
