import FuzzyQuery.Tree.Parse.Progress

/-!
# The grammars of queries

There are two grammars, one for each style, and a query keeps to one of them throughout, nested
groups included. They share `P → '!' P | '(' E ')' | TERM`. In the explicit one
`E → A ('|' A)*` and `A → P ('&' P)*` are folded to the left, so they are written with the
recursion on the left. In the implicit one `E → P P*` is folded to the right with `|`.
-/

namespace FuzzyQuery

def Tree.hasOperator : Tree → Bool
  | term _ => false
  | not inner => inner.hasOperator
  | op _ _ _ => true

inductive Phrase where
  | primary | conjunction | expression

/-- `Derives s phrase tokens tree`: in the grammar of style `s` the tokens are a phrase of the
given kind, and `tree` is what it stands for. -/
inductive Derives : Style → Phrase → List Token → Tree → Prop
  | term {s : Style} {t : Token} (ht : t.kind = .term) : Derives s .primary [t] (.term t.value)
  | not {s : Style} {t : Token} {ts : List Token} {tree : Tree} (ht : t.kind = .not)
      (inner : Derives s .primary ts tree) : Derives s .primary (t :: ts) (.not tree)
  | group {s : Style} {o c : Token} {ts : List Token} {tree : Tree} (ho : o.kind = .opening)
      (inner : Derives s .expression ts tree) (hc : c.kind = .closing) :
      Derives s .primary (o :: (ts ++ [c])) tree
  | single {ts : List Token} {tree : Tree} (only : Derives .explicit .primary ts tree) :
      Derives .explicit .conjunction ts tree
  | and {ls rs : List Token} {t : Token} {l r : Tree} (left : Derives .explicit .conjunction ls l)
      (ht : t.kind = .and) (right : Derives .explicit .primary rs r) :
      Derives .explicit .conjunction (ls ++ t :: rs) (.op .and l r)
  | conjunction {ts : List Token} {tree : Tree} (only : Derives .explicit .conjunction ts tree) :
      Derives .explicit .expression ts tree
  | or {ls rs : List Token} {t : Token} {l r : Tree} (left : Derives .explicit .expression ls l)
      (ht : t.kind = .or) (right : Derives .explicit .conjunction rs r) :
      Derives .explicit .expression (ls ++ t :: rs) (.op .or l r)
  | operand {ts : List Token} {tree : Tree} (only : Derives .implicit .primary ts tree) :
      Derives .implicit .expression ts tree
  | juxtaposed {ls rs : List Token} {l r : Tree} (left : Derives .implicit .primary ls l)
      (right : Derives .implicit .expression rs r) :
      Derives .implicit .expression (ls ++ rs) (.op .or l r)

def HasExplicit (tokens : List Token) : Prop := ∃ t ∈ tokens, t.kind = .and ∨ t.kind = .or

theorem hasExplicit_append (ls rs : List Token) :
    HasExplicit (ls ++ rs) ↔ HasExplicit ls ∨ HasExplicit rs := by
  simp only [HasExplicit, List.mem_append, or_and_right, exists_or]

theorem hasExplicit_cons (t : Token) (ts : List Token) :
    HasExplicit (t :: ts) ↔ (t.kind = .and ∨ t.kind = .or) ∨ HasExplicit ts := by
  simp only [HasExplicit, List.mem_cons, or_and_right, exists_or, exists_eq_left]

theorem not_hasExplicit_nil : ¬ HasExplicit [] := by
  rintro ⟨t, ht, _⟩
  exact List.not_mem_nil ht

namespace Derives

variable {s : Style} {phrase : Phrase} {tokens : List Token} {tree : Tree}

/-- A phrase begins with a term, a negation or a group. -/
theorem starts (h : Derives s phrase tokens tree) :
    ∃ t rest, tokens = t :: rest ∧ t.kind.startsOperand = true := by
  induction h with
  | @term s t ht => exact ⟨t, [], rfl, by rw [ht]; rfl⟩
  | not ht => exact ⟨_, _, rfl, by rw [ht]; rfl⟩
  | group ho => exact ⟨_, _, rfl, by rw [ho]; rfl⟩
  | single _ ih | conjunction _ ih | operand _ ih => exact ih
  | and _ _ _ ih | or _ _ _ ih | juxtaposed _ _ ih =>
    obtain ⟨t, rest, rfl, ht⟩ := ih
    exact ⟨t, _, rfl, ht⟩

/-- Explicit operators are written wherever the explicit grammar joins queries, and the implicit
grammar has none of them. -/
theorem operators (h : Derives s phrase tokens tree) :
    (s = .explicit → (HasExplicit tokens ↔ tree.hasOperator = true)) ∧
    (s = .implicit → ¬ HasExplicit tokens) := by
  induction h with
  | term ht =>
    simp [hasExplicit_cons, not_hasExplicit_nil, ht, Tree.hasOperator]
  | not ht _ ih => simpa [hasExplicit_cons, ht, Tree.hasOperator] using ih
  | group ho _ hc ih =>
    simpa [hasExplicit_cons, hasExplicit_append, not_hasExplicit_nil, ho, hc] using ih
  | single _ ih | conjunction _ ih | operand _ ih => exact ih
  | and _ ht | or _ ht => simp [hasExplicit_append, hasExplicit_cons, ht, Tree.hasOperator]
  | juxtaposed _ _ ihl ihr =>
    refine ⟨nofun, fun hs => ?_⟩
    rw [hasExplicit_append]
    exact fun h => h.elim (ihl.2 hs) (ihr.2 hs)

theorem hasExplicit_iff (h : Derives .explicit phrase tokens tree) :
    HasExplicit tokens ↔ tree.hasOperator = true := h.operators.1 rfl

theorem not_hasExplicit (h : Derives .implicit phrase tokens tree) : ¬ HasExplicit tokens :=
  h.operators.2 rfl

end Derives

end FuzzyQuery
