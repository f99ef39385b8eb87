import FuzzyQuery.Text

/-!
# Findings

The findings of an evaluation are a verdict and the hits in the order in which they were recorded.
Of the hits at one offset the first is kept.
-/

namespace FuzzyQuery

/-- `length` characters of a term stand at `offset`, after `gap` characters were dropped at its
end. -/
structure Hit where
  offset : Int
  length : Int
  gap : Int
  deriving DecidableEq

inductive Category where
  | term
  deriving DecidableEq

structure UnknownCategory where
  name : Text
  deriving DecidableEq

def UnknownCategory.message (e : UnknownCategory) : Text :=
  "Unknown match category: ".toList ++ e.name

def Category.ofName (name : Text) : Except UnknownCategory Category :=
  if name = "term".toList then .ok .term else .error ⟨name⟩

structure Findings where
  success : Bool
  hits : List Hit
  deriving DecidableEq

namespace Findings

def empty : Findings := ⟨false, []⟩

def offsets (f : Findings) : List Int := f.hits.map Hit.offset

def insert (h : Hit) (f : Findings) : Findings :=
  if h.offset ∈ f.offsets then f else { f with hits := f.hits ++ [h] }

def hitsOf (name : Text) (f : Findings) : Except UnknownCategory (List Hit) :=
  match Category.ofName name with
  | .ok .term => .ok f.hits
  | .error e => .error e

def record (name : Text) (h : Hit) (f : Findings) : Except UnknownCategory Bool × Findings :=
  match Category.ofName name with
  | .ok .term => (.ok (h.offset ∉ f.offsets), f.insert h)
  | .error e => (.error e, f)

end Findings

end FuzzyQuery
