import FuzzyQuery.Proofs.Grammar.Reading
import FuzzyQuery.Proofs.Runs

/-!
# Chains of operators

A chain is a run of explicit operators, each with the operand after it. Folding a chain into a tree
on its left joins an operand with the more tightly binding links behind it first. In the explicit
grammar the fold of a chain is what the tokens of the chain derive.
-/

namespace FuzzyQuery

open Parse

abbrev Link := Operator × Tree

def Link.tighter (o : Operator) (link : Link) : Bool := o.precedence < link.1.precedence

def fold (left : Tree) : List Link → Tree
  | [] => left
  | (o, x) :: links =>
    fold (.op o left (fold x (links.takeWhile (Link.tighter o))))
      (links.dropWhile (Link.tighter o))
termination_by links => links.length
decreasing_by
  · exact Nat.lt_succ_of_le (List.takeWhile_sublist _).length_le
  · exact Nat.lt_succ_of_le (List.dropWhile_sublist _).length_le

/-- `Chain bound tokens links`: the tokens are operators that bind more tightly than `bound`, each
followed by the tokens of a primary. -/
inductive Chain (bound : Nat) : List Token → List Link → Prop
  | nil : Chain bound [] []
  | cons {t : Token} {o : Operator} {xs ts : List Token} {x : Tree} {links : List Link}
      (ho : t.kind.operator? = some o) (hb : bound < o.precedence)
      (operand : Derives .explicit .primary xs x) (more : Chain bound ts links) :
      Chain bound (t :: (xs ++ ts)) ((o, x) :: links)

namespace Chain

variable {bound : Nat} {tokens : List Token} {links : List Link}

theorem append {ts : List Token} {ls : List Link} (h : Chain bound tokens links)
    (h' : Chain bound ts ls) : Chain bound (tokens ++ ts) (links ++ ls) := by
  induction h with
  | nil => exact h'
  | cons ho hb operand _ ih =>
    rw [List.cons_append, List.append_assoc]
    exact .cons ho hb operand ih

theorem mono {bound' : Nat} (h : Chain bound tokens links) (hle : bound' ≤ bound) :
    Chain bound' tokens links := by
  induction h with
  | nil => exact .nil
  | cons ho hb operand _ ih => exact .cons ho (Nat.lt_of_le_of_lt hle hb) operand ih

theorem bound_lt (h : Chain bound tokens links) : ∀ link ∈ links, bound < link.1.precedence := by
  induction h with
  | nil => exact fun link hmem => absurd hmem List.not_mem_nil
  | cons _ hb _ _ ih => exact List.forall_mem_cons.2 ⟨hb, ih⟩

/-- The links at the front that bind more tightly than an operator are a chain of their own. -/
theorem split (h : Chain bound tokens links) (o : Operator) :
    ∃ ts ts', tokens = ts ++ ts' ∧ Chain o.precedence ts (links.takeWhile (Link.tighter o)) ∧
      Chain bound ts' (links.dropWhile (Link.tighter o)) := by
  induction h with
  | nil => exact ⟨[], [], rfl, .nil, .nil⟩
  | @cons t o' xs ts x links ho hb operand more ih =>
    by_cases htight : Link.tighter o (o', x) = true
    · obtain ⟨us, us', rfl, htake, hdrop⟩ := ih
      refine ⟨t :: (xs ++ us), us', by simp, ?_, ?_⟩
      · rw [List.takeWhile_cons_of_pos htight]
        exact .cons ho (by simpa [Link.tighter] using htight) operand htake
      · rwa [List.dropWhile_cons_of_pos htight]
    · refine ⟨[], t :: (xs ++ ts), rfl, ?_, ?_⟩
      · rw [List.takeWhile_cons_of_neg htight]
        exact .nil
      · rw [List.dropWhile_cons_of_neg htight]
        exact .cons ho hb operand more

end Chain

theorem not_tighter_and (link : Link) : Link.tighter .and link = false := by
  obtain ⟨o, x⟩ := link
  cases o <;> rfl

theorem takeWhile_tighter_and (links : List Link) :
    links.takeWhile (Link.tighter .and) = [] := by
  cases links with
  | nil => rfl
  | cons link links => exact List.takeWhile_cons_of_neg (by rw [not_tighter_and]; decide)

theorem dropWhile_tighter_and (links : List Link) :
    links.dropWhile (Link.tighter .and) = links := by
  cases links with
  | nil => rfl
  | cons link links => exact List.dropWhile_cons_of_neg (by rw [not_tighter_and]; decide)

theorem fold_and (left x : Tree) (links : List Link) :
    fold left ((.and, x) :: links) = fold (.op .and left x) links := by
  rw [fold, takeWhile_tighter_and, dropWhile_tighter_and, fold]

theorem fold_hasOperator (left : Tree) (links : List Link)
    (h : links ≠ [] ∨ left.hasOperator = true) : (fold left links).hasOperator = true := by
  fun_induction fold left links with
  | case1 left => exact h.elim (absurd rfl) id
  | case2 left o x links _ ih => exact ih (Or.inr rfl)

/-- A chain of `&` continues a conjunction. -/
theorem Chain.conjunction {tokens lead : List Token} {links : List Link} {left : Tree}
    (h : Chain 1 tokens links) (hleft : Derives .explicit .conjunction lead left) :
    Derives .explicit .conjunction (lead ++ tokens) (fold left links) := by
  induction h generalizing lead left with
  | nil => rwa [List.append_nil, fold]
  | @cons t o xs ts x links ho hb operand more ih =>
    have hand : o = .and ∧ t.kind = .and := by
      cases hk : t.kind <;> rw [hk] at ho <;> cases ho
      · exact ⟨rfl, rfl⟩
      · exact absurd hb (by decide)
    obtain ⟨rfl, ht⟩ := hand
    have hnext := ih (.and hleft ht operand)
    rw [fold_and]
    simpa only [List.append_assoc, List.cons_append] using hnext

/-- A chain continues a conjunction, or an expression if it does not begin with `&`. -/
theorem Chain.expression {tokens lead : List Token} {links : List Link} {left : Tree}
    (h : Chain 0 tokens links)
    (hleft : Derives .explicit .conjunction lead left ∨
      Derives .explicit .expression lead left ∧ ∀ link ∈ links.head?, link.1 = .or) :
    Derives .explicit .expression (lead ++ tokens) (fold left links) := by
  -- The induction is the recursion of `fold`; at `|` the conjunction on its right has been folded.
  fun_induction fold left links generalizing tokens lead with
  | case1 left =>
    cases h
    rw [List.append_nil]
    exact hleft.elim .conjunction And.left
  | case2 left o x links _ ih =>
    cases h with
    | @cons t o xs ts x links ho hb operand more =>
      cases hk : t.kind <;> rw [hk] at ho <;> cases ho
      · rcases hleft with hconj | ⟨_, hor⟩
        · rw [takeWhile_tighter_and, dropWhile_tighter_and, fold] at ih ⊢
          have hnext := ih more (Or.inl (.and hconj hk operand))
          simpa only [List.append_assoc, List.cons_append] using hnext
        · exact absurd (hor _ rfl) nofun
      · obtain ⟨us, us', rfl, htake, hdrop⟩ := more.split .or
        have hright : Derives .explicit .conjunction (xs ++ us) _ :=
          htake.conjunction (.single operand)
        have hexpr := Derives.or (hleft.elim .conjunction And.left) hk hright
        have hhead : ∀ link ∈ (links.dropWhile (Link.tighter .or)).head?, link.1 = .or := by
          rintro ⟨o, y⟩ hlink
          cases o with
          | and => exact absurd (stop_dropWhile _ _ _ hlink) (by simp [Link.tighter,
              Operator.precedence])
          | or => rfl
        have hnext := ih hdrop (Or.inr ⟨hexpr, hhead⟩)
        simpa only [List.append_assoc, List.cons_append] using hnext

end FuzzyQuery
