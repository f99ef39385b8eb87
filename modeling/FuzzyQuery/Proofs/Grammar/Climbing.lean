import FuzzyQuery.Proofs.Grammar.Derivation

/-!
# What climbing reads

Climbing reads a chain of operators, each with its operand, and stops at the first token behind an
operand that does not go on with the chain. The tree comes from the chain in two passes: every run
of `&` behind a `|` is folded into the operand of this `|`, and then all links are folded from the
left. Nothing else is read, and every such chain is.
-/

namespace FuzzyQuery

open Parse

def foldLeft (left : Tree) (links : List Link) : Tree :=
  links.foldl (fun tree link => .op link.1 tree link.2) left

/-- Folds every maximal run of `&` that follows a `|` into the operand of this `|`. -/
def bracketed : List Link → List Link
  | [] => []
  | (.and, x) :: links => (.and, x) :: bracketed links
  | (.or, x) :: links =>
    (.or, foldLeft x (links.takeWhile (·.1 = .and))) :: bracketed (links.dropWhile (·.1 = .and))
termination_by links => links.length
decreasing_by
  · exact Nat.lt_succ_self _
  · exact Nat.lt_succ_of_le (List.dropWhile_sublist _).length_le

theorem foldLeft_cons (left : Tree) (link : Link) (links : List Link) :
    foldLeft left (link :: links) = foldLeft (.op link.1 left link.2) links := rfl

theorem tighter_or : Link.tighter .or = fun link => decide (link.1 = .and) := by
  funext ⟨o, x⟩
  cases o <;> rfl

theorem bracketed_of_and {links : List Link} (h : ∀ link ∈ links, link.1 = .and) :
    bracketed links = links := by
  induction links with
  | nil => rw [bracketed]
  | cons link links ih =>
    obtain ⟨o, x⟩ := link
    obtain ⟨rfl, hlinks⟩ := List.forall_mem_cons.1 h
    rw [bracketed, ih hlinks]

theorem fold_of_and {left : Tree} {links : List Link} (h : ∀ link ∈ links, link.1 = .and) :
    fold left links = foldLeft left links := by
  induction links generalizing left with
  | nil => rw [fold]; rfl
  | cons link links ih =>
    obtain ⟨o, x⟩ := link
    obtain ⟨rfl, hlinks⟩ := List.forall_mem_cons.1 h
    rw [fold_and, ih hlinks, foldLeft_cons]

/-- The fold of a chain is the plain fold from the left of the chain with its groups formed. -/
theorem fold_eq (left : Tree) (links : List Link) :
    fold left links = foldLeft left (bracketed links) := by
  fun_induction bracketed links generalizing left with
  | case1 => rw [fold]; rfl
  | case2 x links ih => rw [fold_and, ih, foldLeft_cons]
  | case3 x links ih =>
    have hgroup : ∀ link ∈ links.takeWhile (·.1 = .and), link.1 = .and := by
      intro link hlink
      have hand := mem_takeWhile hlink
      exact of_decide_eq_true hand
    rw [fold, tighter_or, fold_of_and hgroup, ih, foldLeft_cons]

namespace Chain

variable {bound : Nat} {tokens rest : List Token} {links : List Link}

/-- No operator binds more tightly than `&`. -/
theorem eq_nil (h : Chain 2 tokens links) : tokens = [] ∧ links = [] := by
  cases h with
  | nil => exact ⟨rfl, rfl⟩
  | @cons t o xs ts x links ho hb =>
    cases o <;> exact absurd hb (by decide)

theorem all_and (h : Chain 1 tokens links) : ∀ link ∈ links, link.1 = .and := by
  intro link hlink
  have hbound := h.bound_lt link hlink
  obtain ⟨o, x⟩ := link
  cases o with
  | and => rfl
  | or => exact absurd hbound (Nat.lt_irrefl 1)

theorem operandAhead_of_ne_nil (h : Chain bound tokens links) (hne : links ≠ []) :
    operandAhead (tokens ++ rest) = false := by
  cases h with
  | nil => exact absurd rfl hne
  | @cons t o xs ts x links ho =>
    rw [List.cons_append, operandAhead_cons]
    cases hkind : t.kind <;> rw [hkind] at ho <;> cases ho <;> rfl

theorem operandAhead (h : Chain bound tokens links) (hrest : operandAhead rest = false) :
    operandAhead (tokens ++ rest) = false := by
  by_cases hne : links = []
  · subst hne
    cases h
    exact hrest
  · exact h.operandAhead_of_ne_nil hne

/-- A chain of operators that bind no more tightly than `n` stops a climb with this bound. -/
theorem slack {n : Nat} (h : Chain bound tokens links)
    (hhead : ∀ link ∈ links.head?, link.1.precedence ≤ n) (hrest : Slack n rest) :
    Slack n (tokens ++ rest) := by
  cases h with
  | nil => exact hrest
  | @cons t o xs ts x links ho =>
    intro u hu o' ho'
    cases hu
    cases ho.symm.trans ho'
    exact hhead _ rfl

/-- Climbing reads a whole chain if no token behind it would go on with it. -/
theorem climb (h : Chain bound tokens links) (left : Tree) {style : Option Style}
    (hslack : Slack bound rest)
    (hgo : links ≠ [] → permits style .explicit = true ∧ Parse.operandAhead rest = false) :
    Parse.climb left bound style (tokens ++ rest) =
      .read (fold left links) (if links = [] then style else some .explicit) rest := by
  -- The induction is the recursion of `fold`: the links that bind more tightly, then the others.
  fun_induction fold left links generalizing bound tokens rest style with
  | case1 left =>
    cases h
    exact climb_of_slack hslack
  | case2 left o x links ihRight ihWhole =>
    obtain ⟨hpermits, hahead⟩ := hgo (List.cons_ne_nil _ _)
    cases h with
    | @cons t _ xs ts _ _ ho hb operand more =>
      obtain ⟨us, us', rfl, htake, hdrop⟩ := more.split o
      have hloose : ∀ link ∈ (links.dropWhile (Link.tighter o)).head?,
          link.1.precedence ≤ o.precedence := by
        intro link hlink
        have hstop := stop_dropWhile _ _ _ hlink
        simpa [Link.tighter] using hstop
      have hahead' : Parse.operandAhead (us' ++ rest) = false := hdrop.operandAhead hahead
      have hoperand : Parse.operand (some .explicit) (xs ++ (us ++ (us' ++ rest))) =
          .read x (some .explicit) (us ++ (us' ++ rest)) := by
        have hprimary := operand.readAs (some .explicit) (us ++ (us' ++ rest)) rfl
        rw [settle_some] at hprimary
        exact operand_of_primary hprimary (htake.operandAhead hahead')
      have hright : Parse.climb x o.precedence (some .explicit) (us ++ (us' ++ rest)) = _ :=
        ihRight htake (hdrop.slack hloose (hslack.mono (Nat.le_of_lt hb))) fun _ => ⟨rfl, hahead'⟩
      have hwhole : Parse.climb (.op o left _) bound (some .explicit) (us' ++ rest) = _ :=
        ihWhole hdrop hslack fun _ => ⟨rfl, hahead⟩
      rw [ite_self] at hright hwhole
      rw [List.cons_append, List.append_assoc, List.append_assoc, climb_cons ho,
        if_neg (Nat.not_le_of_lt hb), if_pos hpermits, hoperand]
      simp only [Step.bind, hright, hwhole, if_neg (List.cons_ne_nil _ _)]

end Chain

/-- Climbing with `bound` from `left` takes the tokens of these links and comes to `tree`, where
`next` is the token behind them. -/
structure Climbed (left : Tree) (bound : Nat) (used : List Token) (links : List Link)
    (next : Option Token) (style : Option Style) (tree : Tree) (style' : Option Style) : Prop where
  chain : Chain bound used links
  tree_eq : tree = foldLeft left (bracketed links)
  stops : ∀ t ∈ next, ∀ o, t.kind.operator? = some o → o.precedence ≤ bound
  /-- An operator settles the style, and then no operand may follow another one. -/
  settles : links = [] ∧ style' = style ∨
    links ≠ [] ∧ permits style .explicit = true ∧ style' = some .explicit ∧
      ∀ t ∈ next, t.kind.startsOperand = false

section

variable {left tree : Tree} {used : List Token} {links : List Link} {next : Option Token}
  {style style' : Option Style}

/-- With the bound of `|` the chain consists of `&` and is folded as it stands. -/
theorem Climbed.foldLeft_eq (h : Climbed left 1 used links next style tree style') :
    (∀ link ∈ links, link.1 = .and) ∧ tree = foldLeft left links := by
  have hand := h.chain.all_and
  refine ⟨hand, ?_⟩
  rw [h.tree_eq, bracketed_of_and hand]

/-- With the bound of `&` the chain is empty. -/
theorem climbed_two_iff :
    Climbed left 2 used links next style tree style' ↔
      used = [] ∧ links = [] ∧ tree = left ∧ style' = style := by
  constructor
  · intro h
    obtain ⟨rfl, rfl⟩ := h.chain.eq_nil
    obtain ⟨-, hstyle⟩ | ⟨hne, -⟩ := h.settles
    · refine ⟨rfl, rfl, ?_, hstyle⟩
      rw [h.tree_eq, bracketed]
      rfl
    · exact absurd rfl hne
  · rintro ⟨rfl, rfl, rfl, rfl⟩
    refine ⟨.nil, ?_, fun t _ o _ => ?_, .inl ⟨rfl, rfl⟩⟩
    · rw [bracketed]
      rfl
    · cases o <;> decide

end

theorem operandAhead_eq_false_iff {tokens : List Token} :
    operandAhead tokens = false ↔ ∀ t ∈ tokens.head?, t.kind.startsOperand = false := by
  cases tokens with
  | nil => simp [operandAhead]
  | cons t tokens => simp [operandAhead]

theorem climb_eq_read_iff {left tree : Tree} {bound : Nat} {style style' : Option Style}
    {tokens rest : List Token} :
    climb left bound style tokens = .read tree style' rest ↔
      ∃ used links, tokens = used ++ rest ∧
        Climbed left bound used links rest.head? style tree style' := by
  constructor
  · intro h
    obtain ⟨used, links, rfl, hchain, rfl, hslack, hahead, hstyle⟩ := climb_takes h
    refine ⟨used, links, rfl, hchain, fold_eq left links, hslack, ?_⟩
    obtain hnone | ⟨hne, hpermits, hstyle⟩ := hstyle
    · exact .inl hnone
    · have hoperator : operandAhead (used ++ rest) = false := hchain.operandAhead_of_ne_nil hne
      exact .inr ⟨hne, hpermits, hstyle, operandAhead_eq_false_iff.1 (hahead hoperator)⟩
  · rintro ⟨used, links, rfl, hclimbed⟩
    rw [hclimbed.tree_eq, ← fold_eq]
    obtain ⟨rfl, rfl⟩ | ⟨hne, hpermits, rfl, hahead⟩ := hclimbed.settles
    · exact hclimbed.chain.climb left hclimbed.stops (absurd rfl)
    · have hgo := hclimbed.chain.climb left hclimbed.stops fun _ =>
        ⟨hpermits, operandAhead_eq_false_iff.2 hahead⟩
      rwa [if_neg hne] at hgo

end FuzzyQuery
