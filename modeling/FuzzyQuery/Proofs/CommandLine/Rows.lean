import FuzzyQuery.Proofs.CommandLine
import FuzzyQuery.Proofs.Findings
import FuzzyQuery.Proofs.TermSearch

/-!
# The rows of a table

What is shown of a subject is its verdict, and a table when hits were recorded. The table has one row
for every hit, and no two of them at one offset, so that in their order the offsets increase. Each
row is true of some term of the query and of the subject: it cuts out of the subject what is left of
the term without the dropped characters, at the first place where this stands. No term that is found
is missing, for its hit was refused only if the offset had a row already.
-/

namespace FuzzyQuery

variable {subject value : Text} {hits : List Hit} {h : Hit} {taken : List Int}

theorem mem_of_mem_newHits (hmem : h ∈ newHits taken hits) : h ∈ hits := by
  induction hits generalizing taken with
  | nil => exact hmem
  | cons first hits ih =>
    rw [newHits] at hmem
    split at hmem
    · exact List.mem_cons_of_mem first (ih hmem)
    · obtain rfl | hmem := List.mem_cons.1 hmem
      · exact List.mem_cons_self
      · exact List.mem_cons_of_mem first (ih hmem)

/-- A hit that is left out has its offset taken, before or by an earlier one. -/
theorem offset_mem_of_mem (hmem : h ∈ hits) :
    h.offset ∈ taken ∨ ∃ h' ∈ newHits taken hits, h'.offset = h.offset := by
  induction hits generalizing taken with
  | nil => exact absurd hmem List.not_mem_nil
  | cons first hits ih =>
    rw [newHits]
    by_cases hfirst : first.offset ∈ taken
    · rw [if_pos hfirst]
      obtain rfl | hmem := List.mem_cons.1 hmem
      · exact Or.inl hfirst
      · exact ih hmem
    · rw [if_neg hfirst]
      obtain rfl | hmem := List.mem_cons.1 hmem
      · exact Or.inr ⟨h, List.mem_cons_self, rfl⟩
      · obtain htaken | ⟨h', hh', hoffset⟩ := @ih (taken ++ [first.offset]) hmem
        · obtain htaken | hsame := List.mem_append.1 htaken
          · exact Or.inl htaken
          · exact Or.inr ⟨first, List.mem_cons_self, (List.mem_singleton.1 hsame).symm⟩
        · exact Or.inr ⟨h', List.mem_cons_of_mem first hh', hoffset⟩

theorem mem_termValues_iff {tokens : List Token} :
    value ∈ termValues tokens ↔ ∃ t ∈ tokens, t.kind = .term ∧ t.value = value := by
  simp only [termValues, List.mem_map, List.mem_filter, decide_eq_true_eq, and_assoc]

namespace Hit

/-- The hit is true of the term and of the subject: what was found and what was dropped make up the
term, and in the subject stands what is left of it, whole and for the first time. -/
structure Genuine (value subject : Text) (h : Hit) : Prop where
  parts : h.length + h.gap = value.length
  gap_nonneg : 0 ≤ h.gap
  tolerated : h.gap ≤ (value.length ⌈/⌉ 4 : Nat)
  offset_nonneg : 0 ≤ h.offset
  fits : h.offset + h.length ≤ subject.length
  whole : ((h.slice subject).length : Int) = h.length
  slice_eq : h.slice subject = value.take (value.length - h.gap.toNat)
  first : IsLeast (places (h.slice subject) subject) h.offset.toNat

def cells (subject : Text) (h : Hit) : List Text :=
  [Text.ofInt h.offset, Text.ofInt h.length, Text.ofInt h.gap, h.slice subject]

end Hit

theorem StandsFirst.take_drop {pattern : Text} {i : Nat} (hstands : StandsFirst pattern subject i) :
    (subject.drop i).take pattern.length = pattern :=
  (List.prefix_iff_eq_take.1 hstands.stands).symm

theorem Hits.genuine (hhits : Hits value subject h) : h.Genuine value subject := by
  cases hhits with
  | @intro gap i htolerated hstands hleast =>
    have hgap : gap ≤ value.length := by
      rw [← tolerance_eq_ceilDiv] at htolerated
      exact Nat.le_trans htolerated (tolerance_le_length value)
    have hend := hstands.add_length_le
    have hcut := hstands.take_drop
    rw [length_shortened] at hend hcut
    have hslice : Hit.slice ⟨i, (value.length - gap : Nat), gap⟩ subject = shortened value gap := hcut
    have hlength := length_shortened value gap
    exact {
      parts := by dsimp only; omega
      gap_nonneg := Int.natCast_nonneg gap
      tolerated := Int.ofNat_le.2 htolerated
      offset_nonneg := Int.natCast_nonneg i
      fits := by dsimp only; omega
      whole := by rw [hslice, hlength]
      slice_eq := hslice
      first := by rw [hslice]; exact hstands.isLeast_places }

/-- What is found in a subject are hits of the terms, no two at one offset, and where a term has its
hit there is one. -/
theorem hits_search_spec (tree : Tree) (subject : Text) :
    let hits := (tree.search subject .empty).hits
    (hits.map Hit.offset).Nodup ∧
    (∀ h ∈ hits, ∃ value ∈ tree.terms, Hits value subject h) ∧
    ∀ value ∈ tree.terms, ∀ h, Hits value subject h → ∃ h' ∈ hits, h'.offset = h.offset := by
  intro hits
  have hdistinct : (hits.map Hit.offset).Nodup :=
    (Findings.Continues.evaluate tree subject .empty).distinct .nil
  have heq : hits = newHits [] (tree.terms.filterMap (hit? · subject)) := hits_search tree subject
  refine ⟨hdistinct, fun h hh => ?_, fun value hvalue h hhits => ?_⟩
  · rw [heq] at hh
    obtain ⟨value, hvalue, hfound⟩ := List.mem_filterMap.1 (mem_of_mem_newHits hh)
    exact ⟨value, hvalue, hit?_eq_some_iff.1 hfound⟩
  · have hmem : h ∈ tree.terms.filterMap (hit? · subject) :=
      List.mem_filterMap.2 ⟨value, hvalue, hit?_eq_some_iff.2 hhits⟩
    rw [heq]
    exact (offset_mem_of_mem hmem).resolve_left List.not_mem_nil

namespace Findings

variable {f : Findings}

theorem perm_sortedHits (f : Findings) : f.sortedHits.Perm f.hits := List.mergeSort_perm _ _

theorem pairwise_sortedHits (hdistinct : f.offsets.Nodup) :
    f.sortedHits.Pairwise (·.offset < ·.offset) := by
  have hle : f.sortedHits.Pairwise fun a b => decide (a.offset ≤ b.offset) = true :=
    List.pairwise_mergeSort (fun a b c => by simpa using Int.le_trans)
      (fun a b => by simpa using Int.le_total a.offset b.offset) f.hits
  have hne : (f.sortedHits.map Hit.offset).Nodup :=
    (f.perm_sortedHits.map Hit.offset).nodup_iff.2 hdistinct
  exact hle.imp₂ (fun a b hab hab' => lt_of_le_of_ne (of_decide_eq_true hab) hab')
    (List.pairwise_map.1 hne)

theorem sortedHits_eq {rows : List Hit} (hperm : rows.Perm f.hits)
    (hsorted : rows.Pairwise (·.offset < ·.offset)) : f.sortedHits = rows := by
  have hdistinct : f.offsets.Nodup :=
    (hperm.map Hit.offset).nodup_iff.1 (List.pairwise_map.2 (hsorted.imp ne_of_lt))
  exact (f.perm_sortedHits.trans hperm.symm).eq_of_pairwise
    (fun a b _ _ hab hba => absurd hba (Int.lt_asymm hab)) (pairwise_sortedHits hdistinct) hsorted

def verdictLine (subject : Text) (success : Bool) : Text :=
  Text.display ((if success then "MATCH ".toList else "NO MATCH ".toList) ++ subject) ++ ['\n']

def drawn (subject : Text) (rows : List Hit) : Text :=
  if rows = [] then []
  else Table.render
    { columns := [⟨"Offset".toList, Text.alignRight⟩, ⟨"Length".toList, Text.alignRight⟩,
        ⟨"Gap".toList, Text.alignRight⟩, ⟨"Text".toList, Text.alignLeft⟩]
      rows := rows.map (Hit.cells subject) }

theorem report_eq (subject : Text) (f : Findings) :
    f.report subject = verdictLine subject f.success ++ drawn subject f.sortedHits := by
  have hnone : f.sortedHits = [] ↔ f.hits = [] := by
    rw [← List.length_eq_zero_iff, f.perm_sortedHits.length_eq, List.length_eq_zero_iff]
  simp only [report, drawn, hnone]
  rfl

theorem drawn_eq_nil_iff {rows : List Hit} : drawn subject rows = [] ↔ rows = [] := by
  unfold drawn
  by_cases hrows : rows = []
  · simp [hrows]
  · simp [hrows, Table.render, Text.unlines]

end Findings

open Findings

/-- For a query that parses, a match that is asked for writes of every subject its verdict and the
table of what was found in it. The rows are the hits that were recorded, each of them once, by
increasing offsets, and there is no table when nothing was recorded. Every row is true of a term of
the query, and where the search for a term of the query succeeds there is a row at the offset. -/
theorem table_shows_recorded {query : Text} {tree : Tree} (hparse : parse query = .ok tree) :
    ∃ tokens, tokenize query = .ok tokens ∧ ∃ found : Text → Findings,
      (∀ s, findMatches query s = .ok (found s)) ∧
      (∀ subjects, subjects ≠ [] → ∃ args, AsksMatch query subjects false args) ∧
      (∀ subjects args environment, AsksMatch query subjects false args →
        (runArgs args environment).out = subjects.flatMap fun s =>
          verdictLine s (found s).success ++ drawn s (found s).sortedHits) ∧
      ∀ s, let rows := (found s).sortedHits
        rows.Pairwise (·.offset < ·.offset) ∧ rows.Perm (found s).hits ∧
        (drawn s rows = [] ↔ (found s).hits = []) ∧
        (∀ row ∈ rows, ∃ t ∈ tokens, t.kind = .term ∧ row.Genuine t.value s) ∧
        ∀ t ∈ tokens, t.kind = .term → ∀ h, hit? t.value s = some h →
          ∃ row ∈ rows, row.offset = h.offset := by
  obtain ⟨tokens, htokens, hterms⟩ := exists_terms_of_parse hparse
  refine ⟨tokens, htokens, fun s => tree.search s .empty, findMatches_of_parse hparse,
    fun subjects hne => ⟨_, asksMatch_matchArgs query hne false⟩, ?_, fun s => ?_⟩
  · intro subjects args environment hasks
    rw [(hasks.reported hparse environment).2]
    simp only [Command.reportResults, Bool.false_eq_true, if_false, List.flatMap_map, report_eq]
  · intro rows
    have hperm : rows.Perm (tree.search s .empty).hits := perm_sortedHits _
    obtain ⟨hdistinct, hsound, hcomplete⟩ := hits_search_spec tree s
    rw [hterms] at hsound hcomplete
    refine ⟨pairwise_sortedHits hdistinct, hperm, ?_, fun row hrow => ?_, fun t ht hkind h hh => ?_⟩
    · rw [drawn_eq_nil_iff, ← List.length_eq_zero_iff, hperm.length_eq, List.length_eq_zero_iff]
    · obtain ⟨value, hvalue, hhits⟩ := hsound row (hperm.mem_iff.1 hrow)
      obtain ⟨t, ht, hkind, rfl⟩ := mem_termValues_iff.1 hvalue
      exact ⟨t, ht, hkind, hhits.genuine⟩
    · obtain ⟨row, hrow, hoffset⟩ := hcomplete t.value (mem_termValues_iff.2 ⟨t, ht, hkind, rfl⟩) h
        (hit?_eq_some_iff.1 hh)
      exact ⟨row, hperm.mem_iff.2 hrow, hoffset⟩

/-- The first term stands behind the second one in the subject. The third one is found where the
second one is, with a gap, and has no row of its own. -/
theorem table_shows_recorded_refused :
    let query := "cd & !(ab | abc)".toList
    let tree : Tree := .op .and (.term "cd".toList)
      (.not (.op .or (.term "ab".toList) (.term "abc".toList)))
    let s := "abxcd".toList
    let rows : List Hit := [⟨0, 2, 0⟩, ⟨3, 2, 0⟩]
    parse query = .ok tree ∧ AsksMatch query [s] false (matchArgs query [s] false) ∧
      (runArgs (matchArgs query [s] false) none).out =
        verdictLine s false ++ drawn s rows ∧
      ∃ found, findMatches query s = .ok found ∧ found.hits = rows.reverse ∧
        found.sortedHits = rows := by
  intro query tree s rows
  have hparse : parse query = .ok tree := by decide +kernel
  have hasks : AsksMatch query [s] false (matchArgs query [s] false) :=
    asksMatch_matchArgs query (List.cons_ne_nil s []) false
  have hsearch : tree.search s .empty = ⟨false, rows.reverse⟩ := by decide +kernel
  obtain ⟨_, _, found, hfound, -, hout, -⟩ := table_shows_recorded hparse
  have hs : found s = ⟨false, rows.reverse⟩ :=
    (Except.ok.inj ((hfound s).symm.trans (findMatches_of_parse hparse s))).trans hsearch
  have hsorted : (⟨false, rows.reverse⟩ : Findings).sortedHits = rows :=
    sortedHits_eq (List.reverse_perm rows).symm (by decide)
  refine ⟨hparse, hasks, ?_, found s, hfound s, congrArg Findings.hits hs, ?_⟩
  · rw [hout _ _ _ hasks, List.flatMap_singleton, hs, hsorted]
  · rw [hs, hsorted]

end FuzzyQuery
