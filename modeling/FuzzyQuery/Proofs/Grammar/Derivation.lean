import FuzzyQuery.Proofs.Grammar.Chain

/-!
# What is read is derivable

A step that reads a tree has taken tokens that derive this tree, in the grammar of every style that
is still open afterwards. Together with the converse a query comes to a tree exactly when all its
tokens derive the tree in one of the two grammars.
-/

namespace FuzzyQuery

namespace Parse

theorem Step.map_eq_read_iff {step : Step} {f : Tree → Tree} {tree : Tree}
    {style : Option Style} {rest : List Token} :
    step.map f = .read tree style rest ↔ ∃ t, step = .read t style rest ∧ f t = tree := by
  cases step <;> simp [Step.map, and_comm, and_left_comm]

theorem Step.bind_eq_read_iff {step : Step} {f : Tree → Option Style → List Token → Step}
    {tree : Tree} {style : Option Style} {rest : List Token} :
    step.bind f = .read tree style rest ↔
      ∃ t s ts, step = .read t s ts ∧ f t s ts = .read tree style rest := by
  constructor
  · intro h
    cases step with
    | read t s ts => exact ⟨t, s, ts, rfl, h⟩
    | stopped => cases h
  · rintro ⟨t, s, ts, rfl, h⟩
    exact h

theorem close_eq_read_iff {tree u : Tree} {style style' : Option Style}
    {tokens rest : List Token} :
    close tree style tokens = .read u style' rest ↔
      tree = u ∧ style = style' ∧ ∃ c, tokens = c :: rest ∧ c.kind = .closing := by
  cases tokens with
  | nil => simp [close]
  | cons c more =>
    by_cases hc : c.kind = .closing
    · simp only [close, if_pos hc, Step.read.injEq, List.cons.injEq]
      refine and_congr_right fun _ => and_congr_right fun _ => ⟨fun h => ?_, ?_⟩
      · exact ⟨c, ⟨rfl, h⟩, hc⟩
      · rintro ⟨_, ⟨_, h⟩, _⟩
        exact h
    · simp only [close, if_neg hc, List.cons.injEq, reduceCtorEq, false_iff]
      rintro ⟨_, _, d, ⟨rfl, _⟩, hd⟩
      exact hc hd

variable {style style' : Option Style} {tokens rest : List Token} {tree : Tree}

theorem Step.LeavesFewer.length_lt {n : Nat} {step : Step} (h : step.LeavesFewer n)
    (hread : step = .read tree style rest) : rest.length < n := by
  rw [hread] at h
  exact h

end Parse

open Parse

/-- The tokens before `rest` are a phrase that derives the tree in every style that is open
afterwards, and the style has been settled if the tree has an operator. -/
def Takes (phrase : Style → Phrase) (style : Option Style) (tokens : List Token) (tree : Tree)
    (style' : Option Style) (rest : List Token) : Prop :=
  ∃ used, tokens = used ++ rest ∧
    (∃ s, permits style s = true ∧ style' = settle s tree style) ∧
    ∀ s, permits style' s = true → Derives s (phrase s) used tree

/-- Juxtaposition makes one operand of what the implicit grammar calls an expression. -/
def operandPhrase : Style → Phrase
  | .explicit => .primary
  | .implicit => .expression

/-- What climbing with `bound` takes is a chain, after which the operators bind no more tightly. -/
def Climbs (left : Tree) (bound : Nat) (style : Option Style) (tokens : List Token) (tree : Tree)
    (style' : Option Style) (rest : List Token) : Prop :=
  ∃ used links, tokens = used ++ rest ∧ Chain bound used links ∧ tree = fold left links ∧
    Slack bound rest ∧ (operandAhead tokens = false → operandAhead rest = false) ∧
    (links = [] ∧ style' = style ∨
      links ≠ [] ∧ permits style .explicit = true ∧ style' = some .explicit)

theorem permits_of_settle {s u : Style} {style : Option Style} {tree : Tree}
    (hs : permits style s = true) (hu : permits (settle s tree style) u = true) :
    permits style u = true := by
  unfold settle at hu
  split at hu
  · obtain rfl : s = u := by simpa [permits] using hu
    exact hs
  · exact hu

theorem exists_permitted (style : Option Style) : ∃ s, permits style s = true := by
  cases style with
  | none => exact ⟨.explicit, rfl⟩
  | some s => exact ⟨s, by simp [permits]⟩

theorem takes_term {style : Option Style} {t : Token} {rest : List Token} (ht : t.kind = .term) :
    Takes (fun _ => .primary) style (t :: rest) (.term t.value) style rest := by
  obtain ⟨s, hs⟩ := exists_permitted style
  exact ⟨[t], rfl, ⟨s, hs, rfl⟩, fun s _ => .term ht⟩

theorem Takes.not {style style' : Option Style} {t : Token} {tokens rest : List Token}
    {tree : Tree} (h : Takes (fun _ => .primary) style tokens tree style' rest)
    (ht : t.kind = .not) :
    Takes (fun _ => .primary) style (t :: tokens) (.not tree) style' rest := by
  obtain ⟨used, rfl, hsettle, hderives⟩ := h
  exact ⟨t :: used, rfl, hsettle, fun s hs => .not ht (hderives s hs)⟩

theorem Takes.group {style style' : Option Style} {o c : Token} {tokens rest : List Token}
    {tree : Tree} (h : Takes (fun _ => .expression) style tokens tree style' (c :: rest))
    (ho : o.kind = .opening) (hc : c.kind = .closing) :
    Takes (fun _ => .primary) style (o :: tokens) tree style' rest := by
  obtain ⟨used, rfl, hsettle, hderives⟩ := h
  refine ⟨o :: (used ++ [c]), by simp, hsettle, fun s hs => .group ho (hderives s hs) hc⟩

theorem Takes.operand {style style' : Option Style} {tokens rest : List Token} {tree : Tree}
    (h : Takes (fun _ => .primary) style tokens tree style' rest) :
    Takes operandPhrase style tokens tree style' rest := by
  obtain ⟨used, hused, hsettle, hderives⟩ := h
  refine ⟨used, hused, hsettle, fun s hs => ?_⟩
  cases s with
  | explicit => exact hderives .explicit hs
  | implicit => exact .operand (hderives .implicit hs)

theorem Takes.juxtaposed {style style' style'' : Option Style} {tokens more rest : List Token}
    {l r : Tree} (h : Takes (fun _ => .primary) style tokens l style' more)
    (hs : permits style' .implicit = true)
    (h' : Takes operandPhrase (some .implicit) more r style'' rest) :
    Takes operandPhrase style tokens (.op .or l r) style'' rest := by
  obtain ⟨used, rfl, ⟨s, hs', rfl⟩, hleft⟩ := h
  obtain ⟨used', rfl, ⟨u, hu, rfl⟩, hright⟩ := h'
  obtain rfl : Style.implicit = u := by simpa [permits] using hu
  rw [settle_some] at hright ⊢
  refine ⟨used ++ used', (List.append_assoc ..).symm, ⟨.implicit, ?_, rfl⟩, fun v hv => ?_⟩
  · exact permits_of_settle hs' hs
  · obtain rfl : Style.implicit = v := by simpa [permits] using hv
    exact .juxtaposed (hleft .implicit hs) (hright .implicit rfl)

theorem climbs_nil {left : Tree} {bound : Nat} {style : Option Style} {tokens : List Token}
    (h : Slack bound tokens) : Climbs left bound style tokens left style tokens :=
  ⟨[], [], rfl, .nil, by rw [fold], h, id, Or.inl ⟨rfl, rfl⟩⟩

/-- The operator and its operand come first, then what binds more tightly than the operator, then
what binds more tightly than `bound`. -/
theorem Climbs.cons {left next right tree : Tree} {bound : Nat}
    {style style₁ style₂ style₃ : Option Style} {t : Token} {o : Operator}
    {tokens more more' rest : List Token} (ho : t.kind.operator? = some o)
    (hb : bound < o.precedence) (hs : permits style .explicit = true)
    (hnext : Takes operandPhrase (some .explicit) tokens next style₁ more)
    (hahead : operandAhead more = false)
    (hright : Climbs next o.precedence style₁ more right style₂ more')
    (htree : Climbs (.op o left right) bound style₂ more' tree style₃ rest) :
    Climbs left bound style (t :: tokens) tree style₃ rest := by
  obtain ⟨xs, rfl, ⟨s, hs', rfl⟩, hderives⟩ := hnext
  obtain rfl : Style.explicit = s := by simpa [permits] using hs'
  rw [settle_some] at hderives hright
  obtain ⟨us, links, rfl, hchain, rfl, hslack, hahead', hstyle⟩ := hright
  obtain rfl : style₂ = some .explicit := by
    rcases hstyle with ⟨_, h⟩ | ⟨_, _, h⟩ <;> exact h
  obtain ⟨vs, links', rfl, hchain', rfl, hslack', hahead'', hstyle'⟩ := htree
  have hcut : ∀ link ∈ links'.head?, Link.tighter o link = false := by
    intro link hlink
    cases hchain' with
    | nil => cases hlink
    | cons ho' _ _ _ =>
      cases hlink
      exact decide_eq_false (Nat.not_lt.2 (hslack _ rfl _ ho'))
  have hall : ∀ link ∈ links, Link.tighter o link = true := fun link hlink =>
    decide_eq_true (hchain.bound_lt link hlink)
  refine ⟨t :: (xs ++ (us ++ vs)), (o, next) :: (links ++ links'), by simp, ?_, ?_, hslack',
    fun _ => hahead'' (hahead' hahead), Or.inr ⟨List.cons_ne_nil _ _, hs, ?_⟩⟩
  · exact .cons ho hb (hderives .explicit rfl)
      ((hchain.mono (by omega)).append hchain')
  · rw [fold, takeWhile_append_of_stop hall hcut, dropWhile_append_of_stop hall hcut]
  · rcases hstyle' with ⟨_, h⟩ | ⟨_, _, h⟩ <;> exact h

theorem Takes.climb {left tree : Tree} {style style₁ style₂ : Option Style}
    {tokens more rest : List Token} (hleft : Takes operandPhrase style tokens left style₁ more)
    (h : Climbs left 0 style₁ more tree style₂ rest) :
    Takes (fun _ => .expression) style tokens tree style₂ rest := by
  obtain ⟨used, rfl, ⟨s, hs, rfl⟩, hderives⟩ := hleft
  obtain ⟨us, links, rfl, hchain, rfl, _, _, ⟨rfl, rfl⟩ | ⟨hne, hpermits, rfl⟩⟩ := h
  · cases hchain
    rw [fold]
    refine ⟨used, rfl, ⟨s, hs, rfl⟩, fun u hu => ?_⟩
    cases u with
    | explicit => exact .conjunction (.single (hderives .explicit hu))
    | implicit => exact hderives .implicit hu
  · have hexpr := hchain.expression (Or.inl (.single (hderives .explicit hpermits)))
    have hop := fold_hasOperator left links (Or.inl hne)
    refine ⟨used ++ us, (List.append_assoc ..).symm, ⟨.explicit, ?_, ?_⟩, fun u hu => ?_⟩
    · exact permits_of_settle hs hpermits
    · simp [settle, hop]
    · obtain rfl : Style.explicit = u := by simpa [permits] using hu
      exact hexpr

mutual

theorem primary_takes {style style' : Option Style} {tokens rest : List Token} {tree : Tree}
    (h : primary style tokens = .read tree style' rest) :
    Takes (fun _ => .primary) style tokens tree style' rest := by
  cases tokens with
  | nil => rw [primary] at h; cases h
  | cons t more =>
    cases ht : t.kind with
    | term =>
      rw [primary_term ht] at h
      cases h
      exact takes_term ht
    | not =>
      rw [primary_not ht] at h
      obtain ⟨inner, hinner, rfl⟩ := Step.map_eq_read_iff.1 h
      exact (primary_takes hinner).not ht
    | opening =>
      rw [primary_opening ht] at h
      obtain ⟨inner, style₁, ts, hinner, hclose⟩ := Step.bind_eq_read_iff.1 h
      obtain ⟨rfl, rfl, c, rfl, hc⟩ := close_eq_read_iff.1 hclose
      exact (expression_takes hinner).1.group ht hc
    | and | or | closing =>
      rw [primary] at h
      simp only [ht] at h
      cases h
termination_by 3 * tokens.length

theorem operand_takes {style style' : Option Style} {tokens rest : List Token} {tree : Tree}
    (h : operand style tokens = .read tree style' rest) :
    Takes operandPhrase style tokens tree style' rest ∧ operandAhead rest = false := by
  rw [operand_eq] at h
  obtain ⟨first, style₁, more, hfirst, hmore⟩ := Step.bind_eq_read_iff.1 h
  have hlt := (primary_leavesFewer style tokens).length_lt hfirst
  have htakes := primary_takes hfirst
  split at hmore
  · split at hmore
    · rename_i hs
      obtain ⟨second, hsecond, rfl⟩ := Step.map_eq_read_iff.1 hmore
      obtain ⟨htakes', hahead⟩ := operand_takes hsecond
      exact ⟨htakes.juxtaposed hs htakes', hahead⟩
    · cases hmore
  · rename_i hahead
    cases hmore
    exact ⟨htakes.operand, Bool.eq_false_iff.2 hahead⟩
termination_by 3 * tokens.length + 1

theorem climb_takes {left tree : Tree} {bound : Nat} {style style' : Option Style}
    {tokens rest : List Token} (h : climb left bound style tokens = .read tree style' rest) :
    Climbs left bound style tokens tree style' rest := by
  by_cases hslack : Slack bound tokens
  · rw [climb_of_slack hslack] at h
    cases h
    exact climbs_nil hslack
  · obtain ⟨t, more, o, rfl, ho, hb⟩ := exists_operator_of_not_slack hslack
    rw [climb_cons ho, if_neg (by omega)] at h
    split at h
    · rename_i hs
      obtain ⟨next, style₁, ts, hnext, h₁⟩ := Step.bind_eq_read_iff.1 h
      obtain ⟨right, style₂, ts', hright, h₂⟩ := Step.bind_eq_read_iff.1 h₁
      have hlt := (operand_leavesFewer _ _).length_lt hnext
      have hlt' := (climb_leavesFewer _ _ _ _).length_lt hright
      obtain ⟨htakes, hahead⟩ := operand_takes hnext
      exact .cons ho hb hs htakes hahead (climb_takes hright) (climb_takes h₂)
    · cases h
termination_by 3 * tokens.length
decreasing_by all_goals subst_vars; simp only [List.length_cons]; omega

theorem expression_takes {style style' : Option Style} {tokens rest : List Token} {tree : Tree}
    (h : expression style tokens = .read tree style' rest) :
    Takes (fun _ => .expression) style tokens tree style' rest ∧ operandAhead rest = false ∧
      Slack 0 rest := by
  rw [expression_eq] at h
  obtain ⟨left, style₁, more, hleft, hclimb⟩ := Step.bind_eq_read_iff.1 h
  have hlt := (operand_leavesFewer style tokens).length_lt hleft
  obtain ⟨htakes, hahead⟩ := operand_takes hleft
  have hclimbs := climb_takes hclimb
  have hexpr := htakes.climb hclimbs
  obtain ⟨_, _, _, _, _, hslack, hahead', _⟩ := hclimbs
  exact ⟨hexpr, hahead' hahead, hslack⟩
termination_by 3 * tokens.length + 2

end

/-- Only a closing parenthesis can follow an expression that has been read. -/
theorem closing_after_expression {style style' : Option Style} {tokens rest : List Token}
    {tree : Tree} (h : expression style tokens = .read tree style' rest) :
    ∀ t ∈ rest.head?, t.kind = .closing := by
  obtain ⟨_, hahead, hslack⟩ := expression_takes h
  intro t ht
  cases rest with
  | nil => cases ht
  | cons u more =>
    cases ht
    have hstarts : t.kind.startsOperand = false := hahead
    have hoperator := hslack t rfl
    cases hkind : t.kind with
    | closing => rfl
    | term | not | opening =>
      rw [hkind] at hstarts
      cases hstarts
    | and =>
      rw [hkind] at hoperator
      have hle := hoperator .and rfl
      cases hle
    | or =>
      rw [hkind] at hoperator
      have hle := hoperator .or rfl
      cases hle

theorem query_eq_read_iff {tokens rest : List Token} {tree : Tree} {style : Option Style} :
    Parse.query tokens = .read tree style rest ↔
      rest = [] ∧ ∃ s, Derives s .expression tokens tree ∧ style = settle s tree none := by
  constructor
  · intro h
    unfold Parse.query at h
    split at h
    · rename_i hread
      cases h
      obtain ⟨used, hused, ⟨s, _, rfl⟩, hderives⟩ := (expression_takes hread).1
      rw [List.append_nil] at hused
      subst hused
      exact ⟨rfl, s, hderives s (permits_settle rfl), rfl⟩
    · cases h
    · cases h
  · rintro ⟨rfl, s, h, rfl⟩
    exact query_of_derives h

/-- The two grammars together give a token list at most one tree. -/
theorem Derives.unique {s s' : Style} {tokens : List Token} {tree tree' : Tree}
    (h : Derives s .expression tokens tree) (h' : Derives s' .expression tokens tree') :
    tree = tree' := by
  have hread := query_of_derives h
  rw [query_of_derives h'] at hread
  exact (Step.read.inj hread).1.symm

end FuzzyQuery
