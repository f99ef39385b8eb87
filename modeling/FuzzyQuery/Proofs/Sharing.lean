import FuzzyQuery.Proofs.Evaluation

/-!
# Sharing findings

Several evaluations can add to the same findings. Each of them adds what it finds alone, less the
hits at offsets that are taken by then. So its verdict is the one it has alone, to make it once more
changes nothing, and the order of the evaluations makes no difference to the offsets that are taken
in the end.
-/

namespace FuzzyQuery

variable {subject : Text}

/-- Which offsets are taken matters, and not how they are listed. -/
theorem newHits_congr {taken taken' : List Int} (h : ∀ o, o ∈ taken ↔ o ∈ taken')
    (hits : List Hit) : newHits taken hits = newHits taken' hits := by
  induction hits generalizing taken taken' with
  | nil => rfl
  | cons hit hits ih =>
    have hmore : ∀ o, o ∈ taken ++ [hit.offset] ↔ o ∈ taken' ++ [hit.offset] := by
      intro o
      rw [List.mem_append, List.mem_append, h o]
    rw [newHits, newHits, ih h, ih hmore]
    by_cases hmem : hit.offset ∈ taken
    · rw [if_pos hmem, if_pos ((h _).1 hmem)]
    · rw [if_neg hmem, if_neg fun hmem' => hmem ((h _).2 hmem')]

/-- More offsets that are taken keep out the hits there and no others. -/
theorem newHits_append (taken more : List Int) (hits : List Hit) :
    newHits (taken ++ more) hits = (newHits more hits).filter fun h => h.offset ∉ taken := by
  induction hits generalizing more with
  | nil => rfl
  | cons hit hits ih =>
    rw [newHits, newHits]
    by_cases hmore : hit.offset ∈ more
    · rw [if_pos (List.mem_append_right taken hmore), if_pos hmore, ih]
    · by_cases htaken : hit.offset ∈ taken
      · have hsame : ∀ o, o ∈ taken ++ more ↔ o ∈ taken ++ (more ++ [hit.offset]) := by
          intro o
          simp only [List.mem_append, List.mem_singleton]
          constructor
          · rintro (h | h)
            · exact Or.inl h
            · exact Or.inr (Or.inl h)
          · rintro (h | h | rfl)
            · exact Or.inl h
            · exact Or.inr h
            · exact Or.inl htaken
        rw [if_pos (List.mem_append_left more htaken), if_neg hmore, newHits_congr hsame, ih,
          List.filter_cons_of_neg (by simpa using htaken)]
      · have hneither : hit.offset ∉ taken ++ more := by
          rw [List.mem_append]
          exact fun h => h.elim htaken hmore
        rw [if_neg hneither, if_neg hmore, List.append_assoc, ih,
          List.filter_cons_of_pos (by simpa using htaken)]

namespace Tree

/-- The verdict is the one that the evaluation has alone. -/
theorem verdict_evaluate (t : Tree) (f : Findings) :
    (t.evaluate subject f).1 = (t.evaluate subject .empty).1 := by
  rw [Bool.eq_iff_iff, evaluate_iff_meets, evaluate_iff_meets]

/-- What is added are the hits of the evaluation made alone, where their offsets are not taken. -/
theorem findings_evaluate_of_alone (t : Tree) (f : Findings) :
    (t.evaluate subject f).2 = { f with
      hits := f.hits ++
        (t.evaluate subject .empty).2.hits.filter fun h => h.offset ∉ f.offsets } := by
  rw [findings_evaluate, findings_evaluate, Findings.insertAll_eq, Findings.insertAll_eq]
  have hnew := newHits_append f.offsets [] (t.terms.filterMap (hit? · subject))
  rw [List.append_nil] at hnew
  rw [hnew]
  rfl

theorem mem_offsets_evaluate (t : Tree) (f : Findings) (o : Int) :
    o ∈ (t.evaluate subject f).2.offsets ↔
      o ∈ f.offsets ∨ o ∈ (t.evaluate subject .empty).2.offsets := by
  rw [findings_evaluate_of_alone, Findings.offsets, List.map_append, List.mem_append]
  refine or_congr_right' fun hfree => ?_
  constructor
  · intro ho
    obtain ⟨h, hmem, rfl⟩ := List.mem_map.1 ho
    exact List.mem_map_of_mem (List.mem_filter.1 hmem).1
  · intro ho
    obtain ⟨h, hmem, rfl⟩ := List.mem_map.1 ho
    exact List.mem_map_of_mem (List.mem_filter.2 ⟨hmem, decide_eq_true hfree⟩)

/-- Where all its offsets are taken, an evaluation changes nothing. -/
theorem findings_evaluate_of_taken {t : Tree} {f : Findings}
    (h : ∀ o ∈ (t.evaluate subject .empty).2.offsets, o ∈ f.offsets) :
    (t.evaluate subject f).2 = f := by
  have hnone : ((t.evaluate subject .empty).2.hits.filter fun h => h.offset ∉ f.offsets) = [] := by
    rw [List.filter_eq_nil_iff]
    intro hit hmem
    simpa using h hit.offset (List.mem_map_of_mem hmem)
  rw [findings_evaluate_of_alone, hnone, List.append_nil]

end Tree

structure Evaluation where
  tree : Tree
  subject : Text

namespace Evaluation

variable {e : Evaluation} {es es' : List Evaluation}

def verdict (e : Evaluation) : Bool := (e.tree.evaluate e.subject .empty).1

def found (e : Evaluation) : Findings := (e.tree.evaluate e.subject .empty).2

/-- Makes one evaluation after the other on the same findings; each comes with its verdict. -/
def runAll (f : Findings) : List Evaluation → List (Evaluation × Bool) × Findings
  | [] => ([], f)
  | e :: es =>
    let r := e.tree.evaluate e.subject f
    let more := runAll r.2 es
    ((e, r.1) :: more.1, more.2)

theorem verdicts_runAll (f : Findings) (es : List Evaluation) :
    (runAll f es).1 = es.map fun e => (e, e.verdict) := by
  induction es generalizing f with
  | nil => rfl
  | cons e es ih => rw [runAll, List.map_cons, ih, Tree.verdict_evaluate, verdict]

theorem mem_offsets_runAll (f : Findings) (es : List Evaluation) (o : Int) :
    o ∈ (runAll f es).2.offsets ↔ o ∈ f.offsets ∨ ∃ e ∈ es, o ∈ e.found.offsets := by
  induction es generalizing f with
  | nil => simp [runAll]
  | cons e es ih =>
    rw [runAll, ih, Tree.mem_offsets_evaluate, or_assoc]
    simp only [List.exists_mem_cons_iff, found]

theorem findings_runAll_append (f : Findings) (es more : List Evaluation) :
    (runAll f (es ++ more)).2 = (runAll (runAll f es).2 more).2 := by
  induction es generalizing f with
  | nil => rfl
  | cons e es ih => exact ih _

/-- An evaluation that has been made changes nothing when it is made again. -/
theorem evaluate_of_made (f : Findings) (h : e ∈ es) :
    e.tree.evaluate e.subject (runAll f es).2 = (e.verdict, (runAll f es).2) := by
  refine Prod.ext (e.tree.verdict_evaluate _) (Tree.findings_evaluate_of_taken fun o ho => ?_)
  rw [mem_offsets_runAll]
  exact Or.inr ⟨e, h, ho⟩

end Evaluation

open Evaluation

/-- An evaluation adds to the findings what it finds alone, except where an offset is taken. In a
run of evaluations on the same findings each has the verdict that it has alone. One that has been
made can be made again at any later place, and the findings come out the same. In another order the
evaluations have the same verdicts, and the same offsets are taken in the end. -/
theorem evaluations_share_findings (f : Findings) :
    (∀ tree subject, (Tree.evaluate subject tree f).2.hits = f.hits ++
      (Tree.evaluate subject tree .empty).2.hits.filter fun h => h.offset ∉ f.offsets) ∧
    (∀ es, (runAll f es).1 = es.map fun e => (e, (e.tree.evaluate e.subject .empty).1)) ∧
    (∀ es, ∀ e ∈ es, (e.tree.evaluate e.subject (runAll f es).2).2 = (runAll f es).2 ∧
      ∀ more, (runAll f (es ++ e :: more)).2 = (runAll f (es ++ more)).2) ∧
    (∀ es es', es.Perm es' → (runAll f es).1.Perm (runAll f es').1 ∧
      ∀ o, o ∈ (runAll f es).2.offsets ↔ o ∈ (runAll f es').2.offsets) := by
  refine ⟨fun tree subject => ?_, verdicts_runAll f, fun es e he => ?_, fun es es' hperm => ?_⟩
  · rw [tree.findings_evaluate_of_alone]
  · have hagain := congrArg Prod.snd (evaluate_of_made f he)
    refine ⟨hagain, fun more => ?_⟩
    rw [findings_runAll_append, findings_runAll_append, runAll, hagain]
  · constructor
    · rw [verdicts_runAll, verdicts_runAll]
      exact hperm.map _
    · intro o
      simp only [mem_offsets_runAll, hperm.mem_iff]

/-- Two terms stand at the same place. Which of them comes first tells the gap that is recorded
there, and nothing more. -/
theorem evaluations_share_findings_swapped :
    let f : Findings := ⟨true, [⟨0, 9, 9⟩]⟩
    let e : Evaluation := ⟨.term "ab".toList, "xab".toList⟩
    let e' : Evaluation := ⟨.not (.term "abc".toList), "xabd".toList⟩
    (runAll f [e, e']).2 = ⟨true, [⟨0, 9, 9⟩, ⟨1, 2, 0⟩]⟩ ∧
      (runAll f [e', e]).2 = ⟨true, [⟨0, 9, 9⟩, ⟨1, 2, 1⟩]⟩ ∧
      (runAll f [e, e', e]).2 = (runAll f [e, e']).2 ∧
      (runAll f [e, e']).1.Perm (runAll f [e', e]).1 ∧
      ∀ o, o ∈ (runAll f [e, e']).2.offsets ↔ o ∈ (runAll f [e', e]).2.offsets := by
  intro f e e'
  have hmade : e ∈ [e, e'] := List.mem_cons_self
  obtain ⟨-, -, hagain, horder⟩ := evaluations_share_findings f
  have hswap := horder [e, e'] [e', e] (List.Perm.swap e' e [])
  exact ⟨by decide +kernel, by decide +kernel, (hagain [e, e'] e hmade).2 [], hswap.1, hswap.2⟩

end FuzzyQuery
