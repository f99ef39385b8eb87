import FuzzyQuery.Proofs.Evaluation
import Mathlib.Algebra.Group.Nat.Even

/-!
# Terms under negations

A term under an even number of negations can only help a query to succeed, and one under an odd
number can only hinder it. What makes a term occur more easily is a longer subject or a shorter
value.
-/

namespace FuzzyQuery

/-- How many negations stand over each of the terms, from left to right. -/
def Tree.depths : Tree → List Nat
  | term _ => [0]
  | not inner => inner.depths.map (· + 1)
  | op _ left right => left.depths ++ right.depths

/-- The trees differ in one term at most. It stands under `d` negations and has the value `v` in
the first tree and `w` in the second. -/
inductive Replaced (v w : Text) : (d : Nat) → Tree → Tree → Prop
  | here : Replaced v w 0 (.term v) (.term w)
  | not {d : Nat} {t u : Tree} (inner : Replaced v w d t u) :
      Replaced v w (d + 1) (.not t) (.not u)
  | left {d : Nat} {o : Operator} {t u : Tree} (side : Replaced v w d t u) (other : Tree) :
      Replaced v w d (.op o t other) (.op o u other)
  | right {d : Nat} {o : Operator} {t u : Tree} (other : Tree) (side : Replaced v w d t u) :
      Replaced v w d (.op o other t) (.op o other u)

variable {v w s s' : Text} {t u : Tree} {d : Nat}

theorem OccursIn.of_infix (h : OccursIn v s) (hs : s <:+: s') : OccursIn v s' :=
  List.IsInfix.trans h hs

/-- A prefix of a term still has its shortest prefix that is tolerated inside that of the term:
the length `n - ⌈n / 4⌉` does not grow when `n` shrinks. -/
theorem shortened_prefix_shortened (h : w <+: v) :
    shortened w (w.length ⌈/⌉ 4) <+: shortened v (v.length ⌈/⌉ 4) := by
  have hlength : w.length ≤ v.length := h.length_le
  have hleft : w.length - (w.length + 3) / 4 ≤ v.length - (v.length + 3) / 4 := by omega
  rw [← tolerance_eq_ceilDiv, ← tolerance_eq_ceilDiv]
  unfold shortened tolerance
  rw [List.prefix_iff_eq_take.1 h, List.take_take, List.length_take, Nat.min_eq_left hlength]
  apply List.take_prefix_take_left
  exact Nat.le_trans (Nat.min_le_left _ _) hleft

theorem OccursIn.of_prefix (h : OccursIn v s) (hw : w <+: v) : OccursIn w s :=
  (shortened_prefix_shortened hw).isInfix.trans h

namespace Tree

theorem even_depths_not : (∀ d ∈ (not t).depths, Even d) ↔ ∀ d ∈ t.depths, Odd d := by
  simp only [depths, List.forall_mem_map, Nat.even_add_one, Nat.not_even_iff_odd]

theorem odd_depths_not : (∀ d ∈ (not t).depths, Odd d) ↔ ∀ d ∈ t.depths, Even d := by
  simp only [depths, List.forall_mem_map, Nat.odd_add_one, Nat.not_odd_iff_even]

theorem meets_op_mono {l l' r r' : Tree} (hl : l.Meets s → l'.Meets s')
    (hr : r.Meets s → r'.Meets s') (o : Operator) :
    (op o l r).Meets s → (op o l' r').Meets s' := by
  cases o with
  | and => exact And.imp hl hr
  | or => exact Or.imp hl hr

/-- What is true of a subject stays true of a longer one where all parities are even, and what is
false stays false where they are odd. -/
theorem meets_mono_subject (hs : s <:+: s') (t : Tree) :
    ((∀ d ∈ t.depths, Even d) → t.Meets s → t.Meets s') ∧
      ((∀ d ∈ t.depths, Odd d) → t.Meets s' → t.Meets s) := by
  -- a negation exchanges the two parities, so that neither half can be proved alone
  induction t with
  | term value =>
    constructor
    · intro _ h
      exact OccursIn.of_infix h hs
    · intro hodd
      exact absurd (hodd 0 List.mem_cons_self) (by decide)
  | not inner ih =>
    obtain ⟨iheven, ihodd⟩ := ih
    constructor
    · intro heven hmeets hmeets'
      apply hmeets
      exact ihodd (even_depths_not.1 heven) hmeets'
    · intro hodd hmeets' hmeets
      apply hmeets'
      exact iheven (odd_depths_not.1 hodd) hmeets
  | op o left right ihl ihr =>
    simp only [depths, List.forall_mem_append]
    constructor
    · rintro ⟨hl, hr⟩
      exact meets_op_mono (ihl.1 hl) (ihr.1 hr) o
    · rintro ⟨hl, hr⟩
      exact meets_op_mono (ihl.2 hl) (ihr.2 hr) o

end Tree

namespace Replaced

theorem symm (h : Replaced v w d t u) : Replaced w v d u t := by
  induction h with
  | here => exact .here
  | not _ ih => exact .not ih
  | left _ other ih => exact .left ih other
  | right other _ ih => exact .right other ih

/-- A value that occurs more easily helps under an even number of negations, and hinders under an
odd number. -/
theorem meets_mono (h : Replaced v w d t u) (hvw : OccursIn v s → OccursIn w s) :
    (Even d → t.Meets s → u.Meets s) ∧ (Odd d → u.Meets s → t.Meets s) := by
  induction h with
  | here => exact ⟨fun _ => hvw, fun hodd => absurd hodd (by decide)⟩
  | not _ ih =>
    rw [Nat.even_add_one, Nat.not_even_iff_odd, Nat.odd_add_one, Nat.not_odd_iff_even]
    exact ⟨fun hodd => mt (ih.2 hodd), fun heven => mt (ih.1 heven)⟩
  | @left d o t u _ other ih =>
    exact ⟨fun heven => Tree.meets_op_mono (ih.1 heven) id o,
      fun hodd => Tree.meets_op_mono (ih.2 hodd) id o⟩
  | @right d o t u other _ ih =>
    exact ⟨fun heven => Tree.meets_op_mono id (ih.1 heven) o,
      fun hodd => Tree.meets_op_mono id (ih.2 hodd) o⟩

end Replaced

theorem Tree.evaluate_eq_false_iff (t : Tree) (f : Findings) :
    (t.evaluate s f).1 = false ↔ ¬ t.Meets s := by
  rw [← t.evaluate_iff_meets f, Bool.not_eq_true]

/-- A query in which every term stands under an even number of negations succeeds on every subject
that contains one on which it succeeds, and one in which every term stands under an odd number fails
on every subject that contains one on which it fails. Whatever the other terms, a query does not
come to fail when a value under an even number of negations is cut short, or one under an odd number
is extended. -/
theorem evaluate_mono_of_parity (t : Tree) (s : Text) (f f' : Findings) :
    ((∀ d ∈ t.depths, Even d) → (t.evaluate s f).1 = true →
      ∀ s', s <:+: s' → (t.evaluate s' f').1 = true) ∧
    ((∀ d ∈ t.depths, Odd d) → (t.evaluate s f).1 = false →
      ∀ s', s <:+: s' → (t.evaluate s' f').1 = false) ∧
    ∀ v w d u, Replaced v w d t u → (Even d ∧ w <+: v ∨ Odd d ∧ v <+: w) →
      (t.evaluate s f).1 = true → (u.evaluate s f').1 = true := by
  simp only [Tree.evaluate_iff_meets, Tree.evaluate_eq_false_iff]
  refine ⟨?_, ?_, ?_⟩
  · intro heven hmeets s' hs
    exact (Tree.meets_mono_subject hs t).1 heven hmeets
  · intro hodd hfails s' hs hmeets
    exact hfails ((Tree.meets_mono_subject hs t).2 hodd hmeets)
  · rintro v w d u hreplaced (⟨heven, hprefix⟩ | ⟨hodd, hprefix⟩)
    · exact (hreplaced.meets_mono fun hv => hv.of_prefix hprefix).1 heven
    · exact (hreplaced.symm.meets_mono fun hw => hw.of_prefix hprefix).2 hodd

theorem evaluate_mono_of_parity_negated_word :
    let word := Tree.term "lines".toList
    let t := Tree.op .and word (.not (.term "end".toList))
    let shorter := Tree.op .and (.term "li".toList) (.not (.term "end".toList))
    let longer := Tree.op .and word (.not (.term "ending".toList))
    word.not.not.depths = [2] ∧ word.not.depths = [1] ∧ t.depths = [0, 1] ∧
      (word.not.not.evaluate "a line".toList .empty).1 = true ∧
      (word.not.evaluate "a line".toList .empty).1 = false ∧
      (shorter.evaluate "lin".toList .empty).1 = true ∧
      (longer.evaluate "lin".toList .empty).1 = true := by
  intro word t shorter longer
  have hsubject : "lin".toList <:+: "a line".toList := ⟨['a', ' '], ['e'], rfl⟩
  have hword : (word.not.not.evaluate "lin".toList .empty).1 = true := by decide +kernel
  have hnot : (word.not.evaluate "lin".toList .empty).1 = false := by decide +kernel
  have ht : (t.evaluate "lin".toList .empty).1 = true := by decide +kernel
  have hshorter : Replaced "lines".toList "li".toList 0 t shorter := .left .here _
  have hlonger : Replaced "end".toList "ending".toList 1 t longer := .right _ (.not .here)
  obtain ⟨heven, -, -⟩ := evaluate_mono_of_parity word.not.not "lin".toList .empty .empty
  obtain ⟨-, hodd, -⟩ := evaluate_mono_of_parity word.not "lin".toList .empty .empty
  obtain ⟨-, -, hreplaced⟩ := evaluate_mono_of_parity t "lin".toList .empty .empty
  refine ⟨rfl, rfl, rfl, ?_, ?_, ?_, ?_⟩
  · exact heven (by decide) hword _ hsubject
  · exact hodd (by decide) hnot _ hsubject
  · exact hreplaced _ _ 0 _ hshorter (.inl ⟨by decide, by decide⟩) ht
  · exact hreplaced _ _ 1 _ hlonger (.inr ⟨by decide, by decide⟩) ht

end FuzzyQuery
