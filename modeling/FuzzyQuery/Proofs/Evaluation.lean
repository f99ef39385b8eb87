import FuzzyQuery.Proofs.Hit

/-!
# What an evaluation comes to

The verdict of an evaluation is that of a boolean formula over the subject, and the findings given
have no part in it. The findings gain the hits of all terms in their order from left to right,
whatever the verdict on any part of the query; of the hits at one offset the first is kept.
-/

namespace FuzzyQuery

/-- The query read as a formula, in which a term stands for its occurrence in the subject. -/
def Tree.Meets (subject : Text) : Tree → Prop
  | term value => OccursIn value subject
  | not inner => ¬ inner.Meets subject
  | op .and left right => left.Meets subject ∧ right.Meets subject
  | op .or left right => left.Meets subject ∨ right.Meets subject

/-- The hits of terms in the order of the terms, where a term that does not occur has none. -/
inductive TermHits (subject : Text) : List Text → List Hit → Prop
  | nil : TermHits subject [] []
  | hit {value : Text} {terms : List Text} {h : Hit} {hits : List Hit}
      (first : Hits value subject h) (more : TermHits subject terms hits) :
      TermHits subject (value :: terms) (h :: hits)
  | miss {value : Text} {terms : List Text} {hits : List Hit}
      (first : ¬ OccursIn value subject) (more : TermHits subject terms hits) :
      TermHits subject (value :: terms) hits

/-- The hits whose offset is neither taken nor the offset of an earlier one. -/
def newHits (taken : List Int) : List Hit → List Hit
  | [] => []
  | h :: hits =>
    if h.offset ∈ taken then newHits taken hits else h :: newHits (taken ++ [h.offset]) hits

variable {subject value : Text}

theorem hit?_eq_none_iff : hit? value subject = none ↔ ¬ OccursIn value subject := by
  rw [← hit?_isSome_iff, Bool.not_eq_true, Option.isSome_eq_false_iff, Option.isNone_iff_eq_none]

theorem termHits_iff {terms : List Text} {hits : List Hit} :
    TermHits subject terms hits ↔ hits = terms.filterMap (hit? · subject) := by
  constructor
  · intro h
    induction h with
    | nil => rfl
    | hit first _ ih => simp only [List.filterMap_cons, hit?_eq_some_iff.2 first, ih]
    | miss first _ ih => simp only [List.filterMap_cons, hit?_eq_none_iff.2 first, ih]
  · rintro rfl
    induction terms with
    | nil => exact .nil
    | cons value terms ih =>
      cases h : hit? value subject with
      | none =>
        simp only [List.filterMap_cons, h]
        exact .miss (hit?_eq_none_iff.1 h) ih
      | some first =>
        simp only [List.filterMap_cons, h]
        exact .hit (hit?_eq_some_iff.1 h) ih

namespace Findings

def insertAll (hits : List Hit) (f : Findings) : Findings := hits.foldl (fun f h => f.insert h) f

theorem insertAll_append (hits more : List Hit) (f : Findings) :
    f.insertAll (hits ++ more) = (f.insertAll hits).insertAll more :=
  List.foldl_append

/-- What is there already stays as it is and where it is. -/
theorem insertAll_eq (hits : List Hit) (f : Findings) :
    f.insertAll hits = ⟨f.success, f.hits ++ newHits f.offsets hits⟩ := by
  induction hits generalizing f with
  | nil => simp [insertAll, newHits]
  | cons h hits ih =>
    have hcons : f.insertAll (h :: hits) = (f.insert h).insertAll hits := rfl
    by_cases hmem : h.offset ∈ f.offsets
    · have hinsert : f.insert h = f := if_pos hmem
      rw [hcons, hinsert, ih, newHits, if_pos hmem]
    · have hinsert : f.insert h = { f with hits := f.hits ++ [h] } := if_neg hmem
      have hoffsets : f.offsets ++ [h.offset] = (f.insert h).offsets := by
        simp [hinsert, offsets]
      rw [hcons, ih, newHits, if_neg hmem, hoffsets, hinsert, List.append_assoc]
      rfl

end Findings

namespace Tree

/-- An evaluation adds the hits of the terms one after the other, whatever its verdict. -/
theorem findings_evaluate (t : Tree) (f : Findings) :
    (t.evaluate subject f).2 = f.insertAll (t.terms.filterMap (hit? · subject)) := by
  induction t generalizing f with
  | term value =>
    rw [evaluate]
    cases h : hit? value subject with
    | none => simp [terms, h, Findings.insertAll]
    | some hit => simp [terms, h, Findings.insertAll]
  | not inner ih => exact ih f
  | op o left right ihl ihr =>
    rw [evaluate, terms, List.filterMap_append, Findings.insertAll_append, ← ihl, ← ihr]

/-- The verdict is the value of the formula; no findings are needed to tell it. -/
theorem evaluate_iff_meets (t : Tree) (f : Findings) :
    (t.evaluate subject f).1 = true ↔ t.Meets subject := by
  induction t generalizing f with
  | term value =>
    rw [Meets, ← hit?_isSome_iff, evaluate]
    cases hit? value subject <;> simp
  | not inner ih =>
    rw [Meets, ← ih f, evaluate]
    simp
  | op o left right ihl ihr =>
    have hl := ihl f
    have hr := ihr (left.evaluate subject f).2
    cases o with
    | and => rw [Meets, ← hl, ← hr]; simp [evaluate, Operator.apply]
    | or => rw [Meets, ← hl, ← hr]; simp [evaluate, Operator.apply]

/-- Trees with the same terms that are true of the same subjects cannot be told apart. -/
theorem evaluate_congr {t u : Tree} (hterms : t.terms = u.terms)
    (hmeets : ∀ subject, t.Meets subject ↔ u.Meets subject) (subject : Text) (f : Findings) :
    t.evaluate subject f = u.evaluate subject f := by
  refine Prod.ext (Bool.eq_iff_iff.2 ?_) ?_
  · rw [evaluate_iff_meets, evaluate_iff_meets, hmeets]
  · rw [findings_evaluate, findings_evaluate, hterms]

end Tree

/-- Evaluating a query tells whether its formula is true of the subject, and adds to the findings
the hit of every term that has one, from left to right, unless a hit at the same offset was there
before. Nothing else changes. -/
theorem evaluate_refines_formula (t : Tree) (subject : Text) (f : Findings) :
    ((t.evaluate subject f).1 = true ↔ t.Meets subject) ∧
    ∃ hits, (∀ hs, TermHits subject t.terms hs ↔ hs = hits) ∧
      (t.evaluate subject f).2 = ⟨f.success, f.hits ++ newHits f.offsets hits⟩ := by
  refine ⟨t.evaluate_iff_meets f, t.terms.filterMap (hit? · subject), fun hs => termHits_iff, ?_⟩
  rw [t.findings_evaluate, Findings.insertAll_eq]

end FuzzyQuery
