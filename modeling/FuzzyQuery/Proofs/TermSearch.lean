import FuzzyQuery.Proofs.Evaluation
import Mathlib.GroupTheory.GroupAction.Ring
import Mathlib.Order.Bounds.Defs

/-!
# The longest prefix at its first place

The search for a term tries its prefixes from the longest to the shortest that is tolerated, and
looks for each from the left. What it finds is the least gap of all that there are, and the least
place for this gap; when even the shortest prefix is missing it finds nothing. A gap is never longer
than the term, also when there are no characters to drop.
-/

namespace FuzzyQuery

def gaps (value subject : Text) : Set Nat :=
  {g | g ≤ value.length ⌈/⌉ 4 ∧ value.take (value.length - g) <:+: subject}

def places (pattern subject : Text) : Set Nat :=
  {i | (subject.drop i).take pattern.length = pattern}

variable {value subject pattern : Text} {gap i : Nat}

theorem mem_places_iff : i ∈ places pattern subject ↔ pattern <+: subject.drop i := by
  rw [List.prefix_iff_eq_take, eq_comm]
  rfl

theorem StandsFirst.isLeast_places (h : StandsFirst pattern subject i) :
    IsLeast (places pattern subject) i := by
  refine ⟨mem_places_iff.2 h.stands, fun j hj => Nat.le_of_not_lt fun hlt => ?_⟩
  exact h.first j hlt (mem_places_iff.1 hj)

/-- The pattern ends in the subject. An empty one stands at the beginning, not behind the end. -/
theorem StandsFirst.add_length_le (h : StandsFirst pattern subject i) :
    i + pattern.length ≤ subject.length := by
  by_cases hempty : pattern = []
  · have hi : ¬ 0 < i := fun hpos => h.first 0 hpos (by rw [hempty]; exact List.nil_prefix)
    rw [hempty, List.length_nil]
    omega
  · have hlength := h.stands.length_le
    have hpos := List.length_pos_iff.2 hempty
    rw [List.length_drop] at hlength
    omega

/-- The prefixes with a smaller gap are the longer ones. -/
theorem not_isInfix_of_longer (hleast : ∀ g < gap, ¬ shortened value g <:+: subject) {p : Text}
    (hp : p <+: value) (hlonger : value.length - gap < p.length) : ¬ p <:+: subject := by
  have hle := hp.length_le
  have hshortened : p = shortened value (value.length - p.length) := by
    rw [shortened, Nat.sub_sub_self hle]
    exact List.prefix_iff_eq_take.1 hp
  rw [hshortened]
  exact hleast _ (by omega)

theorem isLeast_gaps (htolerated : gap ≤ value.length ⌈/⌉ 4)
    (hstands : StandsFirst (shortened value gap) subject i)
    (hleast : ∀ g < gap, ¬ shortened value g <:+: subject) : IsLeast (gaps value subject) gap := by
  have hoccurs : shortened value gap <:+: subject :=
    hstands.stands.isInfix.trans (List.drop_suffix i subject).isInfix
  exact ⟨⟨htolerated, hoccurs⟩, fun g hg => Nat.le_of_not_lt fun hlt => hleast g hlt hg.2⟩

/-- No more characters are tolerated to be missing than there are. -/
theorem tolerance_le_length (value : Text) : tolerance value ≤ value.length := by
  unfold tolerance
  omega

namespace Findings

variable {f : Findings} {h : Hit}

theorem insert_of_free (hfree : ∀ h' ∈ f.hits, h'.offset ≠ h.offset) :
    f.insert h = ⟨f.success, f.hits ++ [h]⟩ := by
  refine if_neg fun hmem => ?_
  obtain ⟨h', hh', hoffset⟩ := List.mem_map.1 hmem
  exact hfree h' hh' hoffset

theorem insert_of_taken (htaken : ∃ h' ∈ f.hits, h'.offset = h.offset) : f.insert h = f := by
  refine if_pos ?_
  obtain ⟨h', hh', hoffset⟩ := htaken
  exact List.mem_map.2 ⟨h', hh', hoffset⟩

theorem success_insert (h : Hit) (f : Findings) : (f.insert h).success = f.success := by
  by_cases htaken : ∃ h' ∈ f.hits, h'.offset = h.offset
  · rw [insert_of_taken htaken]
  · rw [insert_of_free fun h' hh' hoffset => htaken ⟨h', hh', hoffset⟩]

end Findings

/-- A term is found exactly when the shortest prefix that is tolerated occurs in the subject. Then
there is one hit, with the least gap and for this gap the first place, so that it lies in the
subject, makes up the term together with what was dropped, and no longer prefix occurs anywhere. It
is put behind the hits that are there, unless one of them has its offset: then these stay as they
are, as they do when the term is not found. The verdict is left alone. -/
theorem term_found_at_longest_prefix (value subject : Text) (f : Findings) :
    let n := value.length
    let r := (Tree.term value).evaluate subject f
    (r.1 = true ↔ value.take (n - n ⌈/⌉ 4) <:+: subject) ∧
    (r.1 = true → ∃ gap i : Nat,
      r.2.success = f.success ∧
      ((∀ h ∈ f.hits, h.offset ≠ i) → r.2.hits = f.hits ++ [⟨i, (n - gap : Nat), gap⟩]) ∧
      ((∃ h ∈ f.hits, h.offset = i) → r.2.hits = f.hits) ∧
      IsLeast (gaps value subject) gap ∧ IsLeast (places (value.take (n - gap)) subject) i ∧
      gap ≤ n ∧ (n - gap) + gap = n ∧ i + (n - gap) ≤ subject.length ∧
      ∀ p, p <+: value → n - gap < p.length → ¬ p <:+: subject) ∧
    (r.1 = false → r.2 = f) ∧
    tolerance value = n ⌈/⌉ 4 ∧ ∀ gap ≤ tolerance value, (0 : Int) ≤ (n : Int) - gap := by
  intro n r
  have htolerance : tolerance value = n ⌈/⌉ 4 := tolerance_eq_ceilDiv value
  have hfits : tolerance value ≤ n := tolerance_le_length value
  have hbound : ∀ gap ≤ tolerance value, (0 : Int) ≤ (n : Int) - gap := by omega
  have hfound : r.1 = true ↔ value.take (n - n ⌈/⌉ 4) <:+: subject :=
    (Tree.term value).evaluate_iff_meets f
  cases hhit : hit? value subject with
  | none =>
    have hr : r = (false, f) := by simp only [r, Tree.evaluate, hhit]
    rw [hr] at hfound ⊢
    exact ⟨hfound, fun htrue => absurd htrue Bool.false_ne_true, fun _ => rfl, htolerance, hbound⟩
  | some h =>
    have hr : r = (true, f.insert h) := by simp only [r, Tree.evaluate, hhit]
    rw [hr] at hfound ⊢
    refine ⟨hfound, fun _ => ?_, fun hfalse => absurd hfalse.symm Bool.false_ne_true, htolerance,
      hbound⟩
    cases hit?_eq_some_iff.1 hhit with
    | @intro gap i htolerated hstands hleast =>
      have hgap : gap ≤ n := Nat.le_trans htolerated (htolerance ▸ hfits)
      have hend := hstands.add_length_le
      rw [length_shortened] at hend
      refine ⟨gap, i, Findings.success_insert _ f, fun hfree => ?_, fun htaken => ?_,
        isLeast_gaps htolerated hstands hleast, hstands.isLeast_places, hgap,
        Nat.sub_add_cancel hgap, hend, fun p => not_isInfix_of_longer hleast⟩
      · rw [Findings.insert_of_free hfree]
      · rw [Findings.insert_of_taken htaken]

/-- A longer prefix counts before one that stands further to the left, and its hit is put behind the
one that is there. A second search finds it again and leaves everything as it is. -/
theorem term_found_at_longest_prefix_twice :
    let value := "abcdefgh".toList
    let subject := "abcdef abcdefg".toList
    let f : Findings := ⟨true, [⟨9, 1, 0⟩]⟩
    let once := ((Tree.term value).evaluate subject f).2
    let twice := ((Tree.term value).evaluate subject once).2
    IsLeast (gaps value subject) 1 ∧ IsLeast (places "abcdefg".toList subject) 7 ∧
      once = ⟨true, [⟨9, 1, 0⟩, ⟨7, 7, 1⟩]⟩ ∧ twice = once := by
  intro value subject f once twice
  have hfound : ((Tree.term value).evaluate subject f).1 = true := by decide
  have honce : once = ⟨true, [⟨9, 1, 0⟩, ⟨7, 7, 1⟩]⟩ := by decide
  obtain ⟨-, hhit, -⟩ := term_found_at_longest_prefix value subject f
  obtain ⟨gap, i, -, hfree, htaken, hgap, hplace, -⟩ := hhit hfound
  change _ → once.hits = _ at hfree
  change _ → once.hits = _ at htaken
  rw [honce] at hfree htaken
  have hoffset : ∀ h ∈ f.hits, h.offset ≠ i := by
    intro h hh hi
    have hsame := congrArg List.length (htaken ⟨h, hh, hi⟩)
    cases hsame
  have hbehind : f.hits ++ [⟨7, 7, 1⟩] = f.hits ++ [⟨i, (value.length - gap : Nat), gap⟩] :=
    hfree hoffset
  obtain ⟨hi, -, hg⟩ := Hit.mk.inj (List.singleton_inj.1 (List.append_cancel_left hbehind))
  obtain rfl : i = 7 := (Int.ofNat.inj hi).symm
  obtain rfl : gap = 1 := (Int.ofNat.inj hg).symm
  exact ⟨hgap, hplace, honce, by decide⟩

end FuzzyQuery
