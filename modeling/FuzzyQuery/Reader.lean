import FuzzyQuery.Fault

/-!
# Readers

A reader stands between two characters of a text, or at one of its ends. It moves forward only,
and what it has passed together with what is left is always the whole text.
-/

namespace FuzzyQuery

structure Reader where
  seen : Text
  rest : Text
  deriving DecidableEq

namespace Reader

def ofText (t : Text) : Reader := ⟨[], t⟩

def source (r : Reader) : Text := r.seen ++ r.rest

def position (r : Reader) : Nat := r.seen.length

def atEnd (r : Reader) : Bool := r.rest.isEmpty

def peek (r : Reader) : Option Char := r.rest.head?

def advance (n : Nat) (r : Reader) : Reader := ⟨r.seen ++ r.rest.take n, r.rest.drop n⟩

def consume (r : Reader) : Option Char × Reader := (r.peek, r.advance 1)

def readWhile (p : Char → Bool) (r : Reader) : Text × Reader :=
  let run := r.rest.takeWhile p
  (run, r.advance run.length)

def fail (r : Reader) (fault : Fault) : QueryError := .ofSource r.source fault r.position

def unexpected (r : Reader) : QueryError := r.fail (.unexpectedCharacter r.peek.toList)

def describe (r : Reader) : Text :=
  "CharacterCursor(pos=".toList ++ Text.ofNat r.position ++ ", len=".toList ++
    Text.ofNat r.source.length ++ [')']

@[simp] theorem source_ofText (t : Text) : (ofText t).source = t := rfl

@[simp] theorem source_advance (n : Nat) (r : Reader) : (r.advance n).source = r.source := by
  simp [source, advance]

theorem rest_advance (n : Nat) (r : Reader) : (r.advance n).rest = r.rest.drop n := rfl

theorem position_advance (n : Nat) (r : Reader) :
    (r.advance n).position = r.position + min n r.rest.length := by
  simp [position, advance]

theorem position_le (r : Reader) : r.position ≤ r.source.length := by
  simp [position, source]

theorem atEnd_iff (r : Reader) : r.atEnd = true ↔ r.position = r.source.length := by
  simp [atEnd, position, source]

theorem rest_readWhile (p : Char → Bool) (r : Reader) :
    (r.readWhile p).2.rest = r.rest.dropWhile p := by
  have split := congrArg (List.drop (r.rest.takeWhile p).length)
    (List.takeWhile_append_dropWhile (p := p) (l := r.rest))
  rwa [List.drop_left, eq_comm] at split

end Reader

end FuzzyQuery
