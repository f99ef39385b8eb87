import FuzzyQuery.Proofs.Grammar.Derivation
import FuzzyQuery.Session

/-!
# The language of queries

A query is accepted exactly when its whole token list derives a tree in one of the two grammars,
and this tree, of which there is only one, is what it is parsed to. The style that the session is
left with tells how the operands of the query are joined.
-/

namespace FuzzyQuery

open Parse

theorem tokenize_eq_ok_iff_atEnd {q : Text} {tokens : List Token} :
    tokenize q = .ok tokens ↔
      (Reader.ofText q).tokens.1 = tokens ∧ (Reader.ofText q).tokens.2.atEnd = true := by
  unfold tokenize Reader.checkEnd
  by_cases h : (Reader.ofText q).tokens.2.atEnd = true
  · simp [h, Except.map]
  · simp [h, Except.map]

namespace Session

theorem parse_ofText (q : Text) : (ofText q).parse.1 =
    outcome (Reader.ofText q).tokens.2 (Parse.query (Reader.ofText q).tokens.1) := rfl

theorem style_parse_ofText (q : Text) : (ofText q).parse.2.style =
    (Parse.query (Reader.ofText q).tokens.1).style := rfl

theorem outcome_eq_ok_iff {stop : Reader} {step : Step} {tree : Tree} :
    outcome stop step = .ok tree ↔
      stop.atEnd = true ∧ ∃ style rest, step = .read tree style rest := by
  cases step with
  | read t style rest =>
    unfold outcome Reader.checkEnd
    by_cases h : stop.atEnd = true
    · simp [h, Except.map]
    · simp [h, Except.map]
  | stopped => simp [outcome]

end Session

theorem parse_eq_ok_iff {q : Text} {tree : Tree} :
    parse q = .ok tree ↔
      ∃ tokens, tokenize q = .ok tokens ∧ ∃ s, Derives s .expression tokens tree := by
  unfold parse
  rw [Session.parse_ofText, Session.outcome_eq_ok_iff]
  constructor
  · rintro ⟨hend, style, rest, hread⟩
    obtain ⟨_, s, hs, _⟩ := query_eq_read_iff.1 hread
    exact ⟨_, tokenize_eq_ok_iff_atEnd.2 ⟨rfl, hend⟩, s, hs⟩
  · rintro ⟨tokens, htokens, s, hs⟩
    obtain ⟨rfl, hend⟩ := tokenize_eq_ok_iff_atEnd.1 htokens
    exact ⟨hend, _, _, query_of_derives hs⟩

theorem style_parse_of_derives {q : Text} {tokens : List Token} {s : Style} {tree : Tree}
    (htokens : tokenize q = .ok tokens) (h : Derives s .expression tokens tree) :
    (Session.ofText q).parse.2.style = settle s tree none := by
  obtain ⟨rfl, _⟩ := tokenize_eq_ok_iff_atEnd.1 htokens
  rw [Session.style_parse_ofText, query_of_derives h]
  rfl

theorem settle_eq_iff {s : Style} {tokens : List Token} {tree : Tree}
    (h : Derives s .expression tokens tree) :
    (settle s tree none = some .explicit ↔ HasExplicit tokens) ∧
    (settle s tree none = some .implicit ↔ ¬ HasExplicit tokens ∧ tree.hasOperator = true) ∧
    (settle s tree none = none ↔ tree.hasOperator = false) := by
  cases s with
  | explicit =>
    rw [h.hasExplicit_iff]
    by_cases hop : tree.hasOperator = true
    · simp [settle, hop]
    · simp [settle, hop]
  | implicit =>
    have hnone := h.not_hasExplicit
    by_cases hop : tree.hasOperator = true
    · simp [settle, hop, hnone]
    · simp [settle, hop, hnone]

/-- A query is parsed to a tree exactly when it can be read into tokens that derive the tree in the
explicit or in the implicit grammar; no other tree is derived by these tokens. The style that is
left behind is explicit when there are explicit operators, implicit when operands are joined
without them, and missing when nothing is joined. -/
theorem parse_iff_derives (q : Text) :
    (∀ tree, parse q = .ok tree ↔ ∃ tokens, tokenize q = .ok tokens ∧
      (Derives .explicit .expression tokens tree ∨ Derives .implicit .expression tokens tree)) ∧
    (∀ tokens s s' tree tree', Derives s .expression tokens tree →
      Derives s' .expression tokens tree' → tree = tree') ∧
    (∀ tokens tree, tokenize q = .ok tokens → parse q = .ok tree →
      let style := (Session.ofText q).parse.2.style
      (style = some .explicit ↔ ∃ t ∈ tokens, t.kind = .and ∨ t.kind = .or) ∧
      (style = some .implicit ↔
        (¬ ∃ t ∈ tokens, t.kind = .and ∨ t.kind = .or) ∧ tree.hasOperator = true) ∧
      (style = none ↔ tree.hasOperator = false)) := by
  refine ⟨fun tree => parse_eq_ok_iff.trans ⟨?_, ?_⟩, fun _ _ _ _ _ => Derives.unique, ?_⟩
  · rintro ⟨tokens, htokens, s, hs⟩
    cases s with
    | explicit => exact ⟨tokens, htokens, Or.inl hs⟩
    | implicit => exact ⟨tokens, htokens, Or.inr hs⟩
  · rintro ⟨tokens, htokens, hs | hs⟩
    · exact ⟨tokens, htokens, .explicit, hs⟩
    · exact ⟨tokens, htokens, .implicit, hs⟩
  · intro tokens tree htokens htree
    obtain ⟨tokens', htokens', s, hs⟩ := parse_eq_ok_iff.1 htree
    cases htokens.symm.trans htokens'
    dsimp only
    rw [style_parse_of_derives htokens hs]
    exact settle_eq_iff hs

theorem parse_negated_neighbour :
    let tokens : List Token := [⟨.term, ['a'], 0⟩, ⟨.not, ['!'], 2⟩, ⟨.term, ['b'], 3⟩]
    let tree : Tree := .op .or (.term ['a']) (.not (.term ['b']))
    tokenize "a !b".toList = .ok tokens ∧ parse "a !b".toList = .ok tree ∧
      (∀ s tree', Derives s .expression tokens tree' → tree = tree') ∧
      (Session.ofText "a !b".toList).parse.2.style = some .implicit := by
  intro tokens tree
  obtain ⟨haccepts, hunique, hstyle⟩ := parse_iff_derives "a !b".toList
  have htokens : tokenize "a !b".toList = .ok tokens := by
    rw [tokenize_eq_ok_iff_atEnd, Reader.tokens_of_some (t := ⟨.term, ['a'], 0⟩) rfl,
      Reader.tokens_of_some (t := ⟨.not, ['!'], 2⟩) rfl,
      Reader.tokens_of_some (t := ⟨.term, ['b'], 3⟩) rfl, Reader.tokens_of_none rfl]
    exact ⟨rfl, rfl⟩
  have hderives : Derives .implicit .expression tokens tree :=
    .juxtaposed (.term rfl) (.operand (.not rfl (.term rfl)))
  have htree := (haccepts tree).2 ⟨tokens, htokens, Or.inr hderives⟩
  have hnone : ¬ ∃ t ∈ tokens, t.kind = .and ∨ t.kind = .or := by decide
  exact ⟨htokens, htree, fun s tree' => hunique tokens .implicit s tree tree' hderives,
    (hstyle tokens tree htokens htree).2.1.2 ⟨hnone, rfl⟩⟩

end FuzzyQuery
