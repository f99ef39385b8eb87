import FuzzyQuery.Findings.Request
import FuzzyQuery.Proofs.Evaluation
import FuzzyQuery.Proofs.Matcher

/-!
# Findings only grow

Whatever is asked of findings, failing requests among it, the hits that are there stay as they are
and where they are. New ones are put behind them, and never at an offset that is taken. The verdict
is left alone by everything but an execution that is completed.
-/

namespace FuzzyQuery

namespace Findings

theorem record_term (hit : Hit) (f : Findings) :
    f.record "term".toList hit = (.ok (hit.offset ∉ f.offsets), f.insert hit) := rfl

theorem record_of_unknown {category : Text} (h : category ≠ "term".toList) (hit : Hit)
    (f : Findings) : f.record category hit = (.error ⟨category⟩, f) := by
  have hname : Category.ofName category = .error ⟨category⟩ := if_neg h
  simp only [record, hname]

theorem hitsOf_of_unknown {category : Text} (h : category ≠ "term".toList) (f : Findings) :
    f.hitsOf category = .error ⟨category⟩ := by
  have hname : Category.ofName category = .error ⟨category⟩ := if_neg h
  simp only [hitsOf, hname]

/-- All that a request can do: nothing, put one hit in, or hand the findings to an evaluation, which
sets the verdict only if a matcher is executed. -/
theorem ask_cases (f : Findings) (r : Request) :
    (f.ask r).2 = f ∨ (∃ hit, (f.ask r).2 = f.insert hit) ∨
      (∃ tree subject, (f.ask r).2 = (Tree.evaluate subject tree f).2) ∨
      ∃ m subject tree, r = .execute m subject ∧ m.compile.result = .ok tree ∧
        (f.ask r).2 = tree.search subject f := by
  cases r with
  | record category hit =>
    by_cases hterm : category = "term".toList
    · apply Or.inr ∘ Or.inl
      exact ⟨hit, by rw [hterm]; rfl⟩
    · apply Or.inl
      simp only [ask, record_of_unknown hterm]
  | hitsOf category => exact Or.inl rfl
  | contents => exact Or.inl rfl
  | evaluate what subject =>
    cases what with
    | ok tree => exact Or.inr (Or.inr (Or.inl ⟨tree, subject, rfl⟩))
    | error e => exact Or.inl rfl
  | execute m subject =>
    cases hresult : (m.execute subject f).result with
    | ok g =>
      obtain ⟨tree, htree, rfl⟩ := Matcher.result_execute_eq_ok_iff.1 hresult
      apply Or.inr ∘ Or.inr ∘ Or.inr
      exact ⟨m, subject, tree, rfl, htree, by simp only [ask, hresult]⟩
    | error e =>
      apply Or.inl
      simp only [ask, hresult]

/-- The hits of the first findings are the first hits of the second, and distinct offsets stay
distinct. -/
structure Continues (f g : Findings) : Prop where
  hits : f.hits <+: g.hits
  distinct : f.offsets.Nodup → g.offsets.Nodup

namespace Continues

theorem refl (f : Findings) : f.Continues f := ⟨List.prefix_rfl, id⟩

theorem trans {f g k : Findings} (h : f.Continues g) (h' : g.Continues k) : f.Continues k :=
  ⟨h.hits.trans h'.hits, fun hf => h'.distinct (h.distinct hf)⟩

theorem insert (h : Hit) (f : Findings) : f.Continues (f.insert h) := by
  unfold Findings.insert
  by_cases hmem : h.offset ∈ f.offsets
  · rw [if_pos hmem]
    exact .refl f
  · rw [if_neg hmem]
    refine ⟨List.prefix_append _ _, fun hf => ?_⟩
    have hoffsets : ({ f with hits := f.hits ++ [h] } : Findings).offsets =
        f.offsets ++ [h.offset] := List.map_append
    rw [hoffsets, List.nodup_append]
    refine ⟨hf, List.nodup_singleton _, ?_⟩
    rintro a ha b hb rfl
    rw [List.mem_singleton.1 hb] at ha
    exact hmem ha

theorem insertAll (hits : List Hit) (f : Findings) : f.Continues (f.insertAll hits) := by
  induction hits generalizing f with
  | nil => exact .refl f
  | cons h hits ih => exact (insert h f).trans (ih (f.insert h))

theorem evaluate (tree : Tree) (subject : Text) (f : Findings) :
    f.Continues (tree.evaluate subject f).2 := by
  rw [tree.findings_evaluate]
  exact insertAll _ f

/-- One request touches nothing that is there. -/
theorem ask (f : Findings) (r : Request) : f.Continues (f.ask r).2 := by
  obtain h | ⟨hit, h⟩ | ⟨tree, subject, h⟩ | ⟨_, subject, tree, -, -, h⟩ := f.ask_cases r
  · rw [h]
    exact .refl f
  · rw [h]
    exact insert hit f
  · rw [h]
    exact evaluate tree subject f
  · rw [h]
    exact ⟨(evaluate tree subject f).hits, (evaluate tree subject f).distinct⟩

/-- Nor does a whole run of them. -/
theorem after (f : Findings) (requests : List Request) : f.Continues (f.after requests) := by
  induction requests generalizing f with
  | nil => exact .refl f
  | cons r requests ih => exact (ask f r).trans (ih (f.ask r).2)

end Continues

theorem after_append (f : Findings) (past more : List Request) :
    f.after (past ++ more) = (f.after past).after more := List.foldl_append

/-- To put hits in leaves the verdict. -/
theorem success_insertAll (hits : List Hit) (f : Findings) :
    (f.insertAll hits).success = f.success := by
  rw [insertAll_eq]

theorem success_ask {f : Findings} {r : Request} (h : (f.ask r).2.success ≠ f.success) :
    ∃ m subject tree, r = .execute m subject ∧ m.compile.result = .ok tree ∧
      (f.ask r).2.success = (tree.evaluate subject f).1 := by
  obtain hask | ⟨hit, hask⟩ | ⟨tree, subject, hask⟩ | ⟨m, subject, tree, hr, htree, hask⟩ :=
    f.ask_cases r
  · exact absurd (congrArg success hask) h
  · rw [hask] at h
    exact absurd (success_insertAll [hit] f) h
  · rw [hask, tree.findings_evaluate] at h
    exact absurd (success_insertAll _ f) h
  · exact ⟨m, subject, tree, hr, htree, congrArg success hask⟩

theorem ask_record_term (f : Findings) (hit : Hit) :
    f.ask (.record "term".toList hit) =
      if hit.offset ∈ f.offsets then (.ok (.stored false), f)
      else (.ok (.stored true), { f with hits := f.hits ++ [hit] }) := by
  unfold ask
  simp only [record_term, insert]
  by_cases hmem : hit.offset ∈ f.offsets
  · simp only [hmem, if_true, not_true, decide_false]
    rfl
  · simp only [hmem, if_false, not_false_eq_true, decide_true]
    rfl

theorem ask_of_unknown {category : Text} (h : category ≠ "term".toList) (f : Findings) :
    f.ask (.hitsOf category) = (.error (.category ⟨category⟩), f) ∧
      ∀ hit, f.ask (.record category hit) = (.error (.category ⟨category⟩), f) := by
  refine ⟨?_, fun hit => ?_⟩
  · simp only [ask, hitsOf_of_unknown h]
    rfl
  · simp only [ask, record_of_unknown h]
    rfl

/-- Findings whose offsets are distinct keep them distinct, and keep their hits as the first ones
they have, whatever is asked of them. To record a hit is to put it at the end if its offset is not
taken, and else to change nothing. Requests that fail for their category or for their query change
nothing either, and the verdict changes only to that of an execution that is completed. -/
theorem hits_append_only {start : Findings} (h : start.offsets.Nodup) (past : List Request) :
    let f := start.after past
    f.offsets.Nodup ∧
    (∀ more, f.hits <+: (start.after (past ++ more)).hits) ∧
    (∀ hit, f.ask (.record "term".toList hit) =
      if hit.offset ∈ f.offsets then (.ok (.stored false), f)
      else (.ok (.stored true), { f with hits := f.hits ++ [hit] })) ∧
    (∀ category, category ≠ "term".toList →
      f.ask (.hitsOf category) = (.error (.category ⟨category⟩), f) ∧
      ∀ hit, f.ask (.record category hit) = (.error (.category ⟨category⟩), f)) ∧
    (∀ m subject e, m.compile.result = .error e →
      f.ask (.execute m subject) = (.error (.query e), f)) ∧
    (∀ r, (f.ask r).2.success ≠ f.success →
      ∃ m subject tree, r = .execute m subject ∧ m.compile.result = .ok tree ∧
        (f.ask r).2.success = (tree.evaluate subject f).1) := by
  intro f
  refine ⟨(Continues.after start past).distinct h, fun more => ?_, f.ask_record_term,
    fun category hne => ask_of_unknown hne f, fun m subject e he => ?_, fun r => success_ask⟩
  · rw [after_append]
    exact (Continues.after f more).hits
  · have hresult := Matcher.result_execute_of_error he subject f
    simp only [ask, hresult]

/-- One matcher does not compile, another one finds its term where something was recorded before. -/
theorem hits_append_only_shared :
    let start : Findings := ⟨true, [⟨4, 1, 0⟩]⟩
    let absent : Tree := .not (.term "abcd".toList)
    let past : List Request := [.execute (.ofText "a &".toList) "a".toList,
      .execute ⟨"a &".toList, some absent⟩ "1234abc".toList, .record "term".toList ⟨1, 2, 3⟩]
    let f := start.after past
    start.offsets.Nodup ∧ f = ⟨false, [⟨4, 1, 0⟩, ⟨1, 2, 3⟩]⟩ ∧
      ∀ more, f.hits <+: (start.after (past ++ more)).hits := by
  intro start absent past f
  have hstart : start.offsets.Nodup := by decide
  have hf : f = ⟨false, [⟨4, 1, 0⟩, ⟨1, 2, 3⟩]⟩ := by decide +kernel
  exact ⟨hstart, hf, (hits_append_only hstart past).2.1⟩

end Findings

end FuzzyQuery
