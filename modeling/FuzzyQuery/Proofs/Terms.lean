import FuzzyQuery.Proofs.Evaluation
import FuzzyQuery.Proofs.Grammar.Query
import FuzzyQuery.Proofs.Matcher

/-!
# The terms of a query

Parsing keeps the terms of a query: the leaves of the tree, from left to right, are the values of
the term tokens, however these are joined, negated and grouped. So the hits that are found in a
subject hang on these values and on their order, and on nothing else in the query.
-/

namespace FuzzyQuery

def termValues (tokens : List Token) : List Text :=
  (tokens.filter (·.kind = .term)).map Token.value

theorem termValues_append (ls rs : List Token) :
    termValues (ls ++ rs) = termValues ls ++ termValues rs := by
  rw [termValues, List.filter_append, List.map_append]
  rfl

theorem termValues_cons_of_ne {t : Token} (h : t.kind ≠ .term) (ts : List Token) :
    termValues (t :: ts) = termValues ts := by
  rw [termValues, List.filter_cons_of_neg (by simpa using h)]
  rfl

/-- No phrase loses, repeats or moves a term. -/
theorem Derives.terms_eq {s : Style} {phrase : Phrase} {tokens : List Token} {tree : Tree}
    (h : Derives s phrase tokens tree) : tree.terms = termValues tokens := by
  induction h with
  | @term s t ht => simp [Tree.terms, termValues, ht]
  | not ht _ ih =>
    rw [termValues_cons_of_ne (by simp [ht]), Tree.terms, ih]
  | @group s o c ts tree ho _ hc ih =>
    have hend : termValues [c] = [] := termValues_cons_of_ne (by simp [hc]) []
    rw [termValues_cons_of_ne (by simp [ho]), termValues_append, hend, List.append_nil, ih]
  | single _ ih | conjunction _ ih | operand _ ih => exact ih
  | and _ ht _ ihl ihr | or _ ht _ ihl ihr =>
    rw [termValues_append, termValues_cons_of_ne (by simp [ht]), Tree.terms, ihl, ihr]
  | juxtaposed _ _ ihl ihr => rw [termValues_append, Tree.terms, ihl, ihr]

theorem exists_terms_of_parse {q : Text} {tree : Tree} (h : parse q = .ok tree) :
    ∃ tokens, tokenize q = .ok tokens ∧ tree.terms = termValues tokens := by
  obtain ⟨tokens, htokens, s, hs⟩ := parse_eq_ok_iff.1 h
  exact ⟨tokens, htokens, hs.terms_eq⟩

theorem findMatches_of_parse {q : Text} {tree : Tree} (h : parse q = .ok tree) (subject : Text) :
    findMatches q subject = .ok (tree.search subject .empty) := by
  have hcompile : (Matcher.ofText q).compile = _ := Matcher.compile_of_parse rfl h
  exact Matcher.result_execute_eq_ok_iff.2 ⟨tree, by rw [hcompile], rfl⟩

theorem hits_search (tree : Tree) (subject : Text) :
    (tree.search subject .empty).hits =
      newHits [] (tree.terms.filterMap (hit? · subject)) := by
  have hfindings : (tree.evaluate subject .empty).2 = _ := tree.findings_evaluate .empty
  rw [Findings.insertAll_eq] at hfindings
  exact congrArg Findings.hits hfindings

/-- The hits that a query has in a subject are those of its term tokens in their order, of which the
first at every offset is kept. So two queries with the same terms in the same order have the same
hits in the same order, whatever else is different between them. -/
theorem hits_of_term_tokens {q q' : Text} {tree tree' : Tree} (h : parse q = .ok tree)
    (h' : parse q' = .ok tree') :
    ∃ tokens tokens', tokenize q = .ok tokens ∧ tokenize q' = .ok tokens' ∧
      ∀ subject, ∃ hits found found',
        (∀ hs, TermHits subject (termValues tokens) hs ↔ hs = hits) ∧
        findMatches q subject = .ok found ∧ found.hits = newHits [] hits ∧
        findMatches q' subject = .ok found' ∧
        (termValues tokens' = termValues tokens → found'.hits = found.hits) := by
  obtain ⟨tokens, htokens, hterms⟩ := exists_terms_of_parse h
  obtain ⟨tokens', htokens', hterms'⟩ := exists_terms_of_parse h'
  refine ⟨tokens, tokens', htokens, htokens', fun subject => ?_⟩
  refine ⟨_, tree.search subject .empty, tree'.search subject .empty, fun hs => termHits_iff,
    findMatches_of_parse h subject, ?_, findMatches_of_parse h' subject, fun hsame => ?_⟩
  · rw [hits_search, hterms]
  · rw [hits_search, hits_search, hterms, hterms', hsame]

/-- One query has conjunctions and a negation, the other one puts the terms side by side, and each
of them quotes another term. The last term hits where the first one did. -/
theorem hits_of_term_tokens_regrouped :
    let q := "!(\"b\\c\" & a) & b".toList
    let q' := "bc (a) \"b".toList
    let tree : Tree := .op .and (.not (.op .and (.term ['b', 'c']) (.term ['a']))) (.term ['b'])
    let tree' : Tree := .op .or (.term ['b', 'c']) (.op .or (.term ['a']) (.term ['b']))
    parse q = .ok tree ∧ parse q' = .ok tree' ∧
      ∃ found found', findMatches q "xbca".toList = .ok found ∧
        findMatches q' "xbca".toList = .ok found' ∧ found.success = false ∧
        found'.success = true ∧ found.hits = [⟨1, 2, 0⟩, ⟨3, 1, 0⟩] ∧
        found'.hits = found.hits := by
  intro q q' tree tree'
  have h : parse q = .ok tree := by decide +kernel
  have h' : parse q' = .ok tree' := by decide +kernel
  obtain ⟨tokens, tokens', htokens, htokens', hfound⟩ := hits_of_term_tokens h h'
  have hterms : termValues tokens' = termValues tokens := by
    obtain ⟨_, ht, hterms⟩ := exists_terms_of_parse h
    obtain ⟨_, ht', hterms'⟩ := exists_terms_of_parse h'
    cases ht.symm.trans htokens
    cases ht'.symm.trans htokens'
    have hleaves : tree'.terms = tree.terms := rfl
    rw [← hterms, ← hterms', hleaves]
  obtain ⟨_, found, found', -, hq, -, hq', hsame⟩ := hfound "xbca".toList
  have hfirst : tree.search "xbca".toList .empty = ⟨false, [⟨1, 2, 0⟩, ⟨3, 1, 0⟩]⟩ := by
    decide +kernel
  have hsecond : (tree'.search "xbca".toList .empty).success = true := by decide +kernel
  rw [findMatches_of_parse h, hfirst] at hq
  rw [findMatches_of_parse h'] at hq'
  cases hq
  cases hq'
  refine ⟨h, h', _, _, ?_, findMatches_of_parse h' _, rfl, hsecond, rfl, hsame hterms⟩
  rw [findMatches_of_parse h, hfirst]

end FuzzyQuery
