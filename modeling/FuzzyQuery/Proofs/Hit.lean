import FuzzyQuery.Tree.Evaluate
import Mathlib.Algebra.Order.Floor.Div

/-!
# What a term hits

A hit of a term is told without the search for it: how few characters at the end of the term have
to be dropped for the rest to occur in the subject, and where the rest stands first. The search
finds the hit, and finds nothing when even the shortest prefix that is tolerated does not occur.
-/

namespace FuzzyQuery

structure StandsFirst (pattern subject : Text) (i : Nat) : Prop where
  stands : pattern <+: subject.drop i
  first : ∀ j < i, ¬ pattern <+: subject.drop j

def shortened (value : Text) (gap : Nat) : Text := value.take (value.length - gap)

/-- At most a quarter of the term, rounded up, is missing in the subject. -/
def OccursIn (value subject : Text) : Prop :=
  shortened value (value.length ⌈/⌉ 4) <:+: subject

/-- The term hits the subject with the least gap, and leftmost. -/
inductive Hits (value subject : Text) : Hit → Prop
  | intro {gap i : Nat} (tolerated : gap ≤ value.length ⌈/⌉ 4)
      (stands : StandsFirst (shortened value gap) subject i)
      (least : ∀ g < gap, ¬ shortened value g <:+: subject) :
      Hits value subject ⟨i, (value.length - gap : Nat), gap⟩

theorem tolerance_eq_ceilDiv (value : Text) : tolerance value = value.length ⌈/⌉ 4 :=
  (Nat.ceilDiv_eq_add_pred_div value.length 4).symm

namespace Text

theorem indexOf?_eq_none_iff {subject pattern : Text} :
    subject.indexOf? pattern = none ↔ ¬ pattern <:+: subject := by
  induction subject with
  | nil => simp [indexOf?]
  | cons c t ih =>
    rw [indexOf?, List.infix_cons_iff, not_or, ← ih]
    by_cases h : pattern <+: c :: t
    · simp [h]
    · simp [h]

theorem standsFirst_of_indexOf? {subject pattern : Text} {i : Nat}
    (h : subject.indexOf? pattern = some i) : StandsFirst pattern subject i := by
  induction subject generalizing i with
  | nil =>
    obtain ⟨rfl, rfl⟩ : pattern = [] ∧ 0 = i := by simpa [indexOf?] using h
    exact ⟨List.nil_prefix, fun j hj => absurd hj (Nat.not_lt_zero j)⟩
  | cons c t ih =>
    rw [indexOf?] at h
    split at h
    · rename_i hp
      cases h
      exact ⟨List.isPrefixOf_iff_prefix.1 hp, fun j hj => absurd hj (Nat.not_lt_zero j)⟩
    · rename_i hp
      obtain ⟨k, hk, rfl⟩ := Option.map_eq_some_iff.1 h
      obtain ⟨hstands, hfirst⟩ := ih hk
      refine ⟨hstands, fun j hj => ?_⟩
      cases j with
      | zero => exact fun hpre => hp (List.isPrefixOf_iff_prefix.2 hpre)
      | succ j => exact hfirst j (Nat.lt_of_succ_lt_succ hj)

theorem indexOf?_eq_some_iff {subject pattern : Text} {i : Nat} :
    subject.indexOf? pattern = some i ↔ StandsFirst pattern subject i := by
  refine ⟨standsFirst_of_indexOf?, fun h => ?_⟩
  cases hk : subject.indexOf? pattern with
  | none =>
    have hinfix := h.stands.isInfix.trans (List.drop_suffix i subject).isInfix
    exact absurd hinfix (indexOf?_eq_none_iff.1 hk)
  | some k =>
    -- Of two first places neither is before the other.
    have hk' := standsFirst_of_indexOf? hk
    have hik : ¬ i < k := fun hlt => hk'.first i hlt h.stands
    have hki : ¬ k < i := fun hlt => h.first k hlt hk'.stands
    rw [Nat.le_antisymm (Nat.not_lt.1 hik) (Nat.not_lt.1 hki)]

end Text

theorem findSome?_range_eq_some_iff {α : Type} {f : Nat → Option α} {n : Nat} {a : α} :
    (List.range n).findSome? f = some a ↔ ∃ i < n, f i = some a ∧ ∀ j < i, f j = none := by
  induction n with
  | zero => simp
  | succ n ih =>
    rw [List.range_succ, List.findSome?_append, Option.or_eq_some_iff, ih]
    constructor
    · rintro (⟨i, hi, hf⟩ | ⟨hnone, hf⟩)
      · exact ⟨i, Nat.lt_succ_of_lt hi, hf⟩
      · refine ⟨n, Nat.lt_succ_self n, by simpa using hf, fun j hj => ?_⟩
        exact List.findSome?_eq_none_iff.1 hnone j (List.mem_range.2 hj)
    · rintro ⟨i, hi, hf, hbefore⟩
      by_cases hin : i < n
      · exact Or.inl ⟨i, hin, hf, hbefore⟩
      · obtain rfl : i = n := by omega
        refine Or.inr ⟨List.findSome?_eq_none_iff.2 fun j hj => ?_, by simpa using hf⟩
        exact hbefore j (List.mem_range.1 hj)

theorem length_shortened (value : Text) (gap : Nat) :
    (shortened value gap).length = value.length - gap :=
  List.length_take_of_le (Nat.sub_le _ _)

theorem hitWithGap?_eq (value subject : Text) (gap : Nat) :
    hitWithGap? value subject gap = (subject.indexOf? (shortened value gap)).map fun i : Nat =>
      (⟨i, (value.length - gap : Nat), gap⟩ : Hit) := by
  rw [← length_shortened]
  simp only [hitWithGap?, shortened]
  cases subject.indexOf? (value.take (value.length - gap)) <;> rfl

theorem hitWithGap?_eq_none_iff {value subject : Text} {gap : Nat} :
    hitWithGap? value subject gap = none ↔ ¬ shortened value gap <:+: subject := by
  rw [hitWithGap?_eq, Option.map_eq_none_iff, Text.indexOf?_eq_none_iff]

theorem hitWithGap?_eq_some_iff {value subject : Text} {gap : Nat} {h : Hit} :
    hitWithGap? value subject gap = some h ↔
      ∃ i, StandsFirst (shortened value gap) subject i ∧
        ⟨i, (value.length - gap : Nat), gap⟩ = h := by
  simp only [hitWithGap?_eq, Option.map_eq_some_iff, Text.indexOf?_eq_some_iff]

/-- The search for a term finds its hit. -/
theorem hit?_eq_some_iff {value subject : Text} {h : Hit} :
    hit? value subject = some h ↔ Hits value subject h := by
  rw [hit?, findSome?_range_eq_some_iff, tolerance_eq_ceilDiv]
  constructor
  · rintro ⟨gap, hgap, hsome, hnone⟩
    obtain ⟨i, hstands, rfl⟩ := hitWithGap?_eq_some_iff.1 hsome
    exact .intro (Nat.le_of_lt_succ hgap) hstands fun g hg =>
      hitWithGap?_eq_none_iff.1 (hnone g hg)
  · rintro ⟨htolerated, hstands, hleast⟩
    exact ⟨_, Nat.lt_succ_of_le htolerated, hitWithGap?_eq_some_iff.2 ⟨_, hstands, rfl⟩,
      fun g hg => hitWithGap?_eq_none_iff.2 (hleast g hg)⟩

theorem isInfix_shortened {m n : Nat} (value : Text) (h : m ≤ n) :
    shortened value n <:+: shortened value m :=
  (List.take_prefix_take_left (Nat.sub_le_sub_left h _)).isInfix

/-- A term hits a subject exactly when the shortest prefix that is tolerated occurs there. -/
theorem hit?_isSome_iff {value subject : Text} :
    (hit? value subject).isSome = true ↔ OccursIn value subject := by
  rw [← not_iff_not, Bool.not_eq_true, Option.isSome_eq_false_iff, Option.isNone_iff_eq_none, hit?,
    List.findSome?_eq_none_iff, tolerance_eq_ceilDiv]
  constructor
  · intro h
    exact hitWithGap?_eq_none_iff.1 (h _ (List.mem_range.2 (Nat.lt_succ_self _)))
  · intro h g hg
    rw [hitWithGap?_eq_none_iff]
    exact fun hinfix =>
      h ((isInfix_shortened value (Nat.le_of_lt_succ (List.mem_range.1 hg))).trans hinfix)

end FuzzyQuery
