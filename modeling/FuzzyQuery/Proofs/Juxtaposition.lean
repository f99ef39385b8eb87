import FuzzyQuery.Proofs.Evaluation
import FuzzyQuery.Proofs.Grammar

/-!
# Writing out juxtaposition

Two operands that stand side by side mean the same as with `|` between them. When a `|` is put at
every such place, a derivation in the implicit grammar becomes one in the explicit grammar. The
tree is folded the other way round then, but it has the same terms in the same order and is true of
the same subjects.
-/

namespace FuzzyQuery

def Juxtaposed (t u : Token) : Prop :=
  (t.kind = .term ∨ t.kind = .closing) ∧ (u.kind = .term ∨ u.kind = .not ∨ u.kind = .opening)

instance (t u : Token) : Decidable (Juxtaposed t u) := inferInstanceAs (Decidable (_ ∧ _))

def bar : Token := ⟨.or, ['|'], 0⟩

def barBetween (t : Token) (rest : List Token) : List Token :=
  if ∃ u ∈ rest.head?, Juxtaposed t u then [bar] else []

/-- The tokens with a `|` at every juxtaposition. -/
def withBars : List Token → List Token
  | [] => []
  | t :: rest => t :: (barBetween t rest ++ withBars rest)

/-- Trees that no evaluation can tell apart, and that join queries both or neither. -/
structure Tree.Alike (t u : Tree) : Prop where
  terms : t.terms = u.terms
  meets : ∀ subject, t.Meets subject ↔ u.Meets subject
  hasOperator : t.hasOperator = u.hasOperator

namespace Tree.Alike

theorem refl (t : Tree) : t.Alike t := ⟨rfl, fun _ => Iff.rfl, rfl⟩

theorem trans {t u v : Tree} (h : t.Alike u) (h' : u.Alike v) : t.Alike v :=
  ⟨h.terms.trans h'.terms, fun subject => (h.meets subject).trans (h'.meets subject),
    h.hasOperator.trans h'.hasOperator⟩

theorem not {t u : Tree} (h : t.Alike u) : (Tree.not t).Alike (.not u) :=
  ⟨h.terms, fun subject => not_congr (h.meets subject), h.hasOperator⟩

theorem or {l l' r r' : Tree} (hl : l.Alike l') (hr : r.Alike r') :
    (Tree.op .or l r).Alike (.op .or l' r') := by
  refine ⟨?_, fun subject => or_congr (hl.meets subject) (hr.meets subject), rfl⟩
  rw [Tree.terms, Tree.terms, hl.terms, hr.terms]

theorem assoc (t u v : Tree) :
    (Tree.op .or (.op .or t u) v).Alike (.op .or t (.op .or u v)) :=
  ⟨List.append_assoc _ _ _, fun _ => or_assoc, rfl⟩

theorem evaluate_eq {t u : Tree} (h : t.Alike u) (subject : Text) (f : Findings) :
    t.evaluate subject f = u.evaluate subject f :=
  Tree.evaluate_congr h.terms h.meets subject f

end Tree.Alike

theorem barBetween_of_juxtaposed {t u : Token} (h : Juxtaposed t u) (rest : List Token) :
    barBetween t (u :: rest) = [bar] := if_pos ⟨u, rfl, h⟩

theorem barBetween_of_not_juxtaposed {t : Token} {rest : List Token}
    (h : ∀ u ∈ rest.head?, ¬ Juxtaposed t u) : barBetween t rest = [] :=
  if_neg fun ⟨u, hu, hj⟩ => h u hu hj

/-- Nothing is put behind a token with which no operand ends. -/
theorem withBars_cons {t : Token} (h : ¬ (t.kind = .term ∨ t.kind = .closing))
    (rest : List Token) : withBars (t :: rest) = t :: withBars rest := by
  rw [withBars, barBetween_of_not_juxtaposed fun u _ hj => h hj.1, List.nil_append]

/-- Nothing is put before the end of a group. -/
theorem withBars_concat {c : Token} (hc : c.kind = .closing) (ts : List Token) :
    withBars (ts ++ [c]) = withBars ts ++ [c] := by
  induction ts with
  | nil => rfl
  | cons t ts ih =>
    have hbar : barBetween t (ts ++ [c]) = barBetween t ts := by
      cases ts with
      | cons u us => rfl
      | nil =>
        refine (barBetween_of_not_juxtaposed fun u hu hj => ?_).trans (if_neg nofun).symm
        cases hu
        simp [Juxtaposed, hc] at hj
    rw [List.cons_append, withBars, withBars, ih, hbar, List.cons_append, List.append_assoc]

/-- A `|` is put where one operand ends and the next one begins. -/
theorem withBars_append {t u : Token} (h : Juxtaposed t u) (ts us : List Token) :
    withBars (ts ++ [t] ++ u :: us) = withBars (ts ++ [t]) ++ bar :: withBars (u :: us) := by
  induction ts with
  | nil =>
    have hend : barBetween t [] = [] := if_neg nofun
    simp only [List.nil_append, List.cons_append, withBars, barBetween_of_juxtaposed h, hend]
  | cons s ts ih =>
    have hbar : barBetween s (ts ++ [t] ++ u :: us) = barBetween s (ts ++ [t]) := by
      cases ts <;> rfl
    rw [List.cons_append, List.cons_append, withBars, withBars, ih, hbar, List.cons_append,
      List.append_assoc]

namespace Derives

/-- A phrase ends with a term or with the end of a group. -/
theorem ends {s : Style} {phrase : Phrase} {tokens : List Token} {tree : Tree}
    (h : Derives s phrase tokens tree) :
    ∃ init t, tokens = init ++ [t] ∧ (t.kind = .term ∨ t.kind = .closing) := by
  induction h with
  | @term s t ht => exact ⟨[], t, rfl, Or.inl ht⟩
  | @not s t _ _ _ _ ih =>
    obtain ⟨init, u, rfl, hu⟩ := ih
    exact ⟨t :: init, u, rfl, hu⟩
  | @group s o c ts _ _ _ hc => exact ⟨o :: ts, c, rfl, Or.inr hc⟩
  | single _ ih | conjunction _ ih | operand _ ih => exact ih
  | @and ls _ t _ _ _ _ _ _ ih | @or ls _ t _ _ _ _ _ _ ih =>
    obtain ⟨init, u, rfl, hu⟩ := ih
    exact ⟨ls ++ t :: init, u, by simp, hu⟩
  | @juxtaposed ls _ _ _ _ _ _ ih =>
    obtain ⟨init, u, rfl, hu⟩ := ih
    exact ⟨ls ++ init, u, by simp, hu⟩

end Derives

/-- What the implicit grammar makes of a phrase the explicit grammar makes of it with bars, alone
and as the operand of another `|`. -/
def BarredAs (tokens : List Token) (tree : Tree) : Phrase → Prop
  | .primary => ∃ u, Derives .explicit .primary (withBars tokens) u ∧ u.Alike tree
  | .conjunction => True
  | .expression =>
    (∃ u, Derives .explicit .expression (withBars tokens) u ∧ u.Alike tree) ∧
    ∀ ls l, Derives .explicit .expression ls l →
      ∃ u, Derives .explicit .expression (ls ++ bar :: withBars tokens) u ∧
        u.Alike (.op .or l tree)

theorem barredAs_of_primary {tokens : List Token} {tree : Tree}
    (h : BarredAs tokens tree .primary) : BarredAs tokens tree .expression := by
  obtain ⟨u, hu, halike⟩ := h
  refine ⟨⟨u, .conjunction (.single hu), halike⟩, fun ls l hl => ?_⟩
  exact ⟨_, .or hl rfl (.single hu), (Tree.Alike.refl l).or halike⟩

theorem barredAs_juxtaposed {ls rs : List Token} {l r : Tree}
    (hbars : withBars (ls ++ rs) = withBars ls ++ bar :: withBars rs)
    (hl : BarredAs ls l .primary) (hr : BarredAs rs r .expression) :
    BarredAs (ls ++ rs) (.op .or l r) .expression := by
  obtain ⟨l', hl', hleft⟩ := hl
  have halone := hr.2 (withBars ls) l' (.conjunction (.single hl'))
  unfold BarredAs
  rw [hbars]
  constructor
  · obtain ⟨u, hu, halike⟩ := halone
    exact ⟨u, hu, halike.trans (hleft.or (.refl r))⟩
  · intro ks k hk
    have hjoined : Derives .explicit .expression (ks ++ bar :: withBars ls) (.op .or k l') :=
      .or hk rfl (.single hl')
    obtain ⟨u, hu, halike⟩ := hr.2 _ _ hjoined
    refine ⟨u, by simpa using hu, halike.trans ((Tree.Alike.assoc k l' r).trans ?_)⟩
    exact (Tree.Alike.refl k).or (hleft.or (.refl r))

/-- The induction is over the derivation; on its way the right fold is turned into the left one. -/
theorem Derives.barredAs {s : Style} {phrase : Phrase} {tokens : List Token} {tree : Tree}
    (h : Derives s phrase tokens tree) (hs : s = .implicit) : BarredAs tokens tree phrase := by
  induction h with
  | @term s t ht => exact ⟨_, .term ht, .refl _⟩
  | not ht _ ih =>
    obtain ⟨u, hu, halike⟩ := ih hs
    refine ⟨.not u, ?_, halike.not⟩
    rw [withBars_cons (by simp [ht])]
    exact .not ht hu
  | group ho _ hc ih =>
    obtain ⟨⟨u, hu, halike⟩, _⟩ := ih hs
    refine ⟨u, ?_, halike⟩
    rw [withBars_cons (by simp [ho]), withBars_concat hc]
    exact .group ho hu hc
  | single | and | conjunction | or => cases hs
  | operand _ ih => exact barredAs_of_primary (ih hs)
  | juxtaposed left right ihl ihr =>
    obtain ⟨init, t, rfl, ht⟩ := left.ends
    obtain ⟨u, rest, rfl, hu⟩ := right.starts
    refine barredAs_juxtaposed (withBars_append ⟨ht, ?_⟩ _ _) (ihl hs) (ihr hs)
    cases hkind : u.kind <;> simp [hkind, TokenKind.startsOperand] at hu ⊢

/-- Tokens that derive a tree in the implicit grammar derive one in the explicit grammar when the
bars are written out, and the two trees cannot be told apart. -/
theorem Derives.exists_explicit {tokens : List Token} {tree : Tree}
    (h : Derives .implicit .expression tokens tree) :
    ∃ u, Derives .explicit .expression (withBars tokens) u ∧ u.Alike tree :=
  (h.barredAs rfl).1

end FuzzyQuery
