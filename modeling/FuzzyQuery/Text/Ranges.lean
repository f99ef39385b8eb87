/-!
# Sets of code points

A set of code points is kept as a list of closed intervals.
-/

namespace FuzzyQuery

abbrev Ranges := List (Nat × Nat)

namespace Ranges

def contains (s : Ranges) (c : Char) : Bool :=
  s.any fun (low, high) => low ≤ c.toNat && c.toNat ≤ high

theorem contains_iff (s : Ranges) (c : Char) :
    s.contains c = true ↔ ∃ r ∈ s, r.1 ≤ c.toNat ∧ c.toNat ≤ r.2 := by
  simp [contains]

end Ranges

end FuzzyQuery
