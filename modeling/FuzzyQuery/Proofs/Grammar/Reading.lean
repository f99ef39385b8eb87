import FuzzyQuery.Proofs.Grammar

/-!
# Derivable tokens are read

Whatever tokens follow, the steps of the parser take exactly the tokens of a phrase and come to the
tree that the grammar gives. A phrase of operators is followed as a fold in progress: reading it
from its first operand comes to the same as climbing on from the tree of the whole phrase.
-/

namespace FuzzyQuery

namespace Parse

def settle (s : Style) (tree : Tree) (style : Option Style) : Option Style :=
  if tree.hasOperator then some s else style

def Slack (bound : Nat) (tokens : List Token) : Prop :=
  ∀ t ∈ tokens.head?, ∀ o, t.kind.operator? = some o → o.precedence ≤ bound

def operandAhead (tokens : List Token) : Bool := tokens.head?.any (·.kind.startsOperand)

variable {s : Style} {style : Option Style} {tree : Tree} {tokens rest : List Token}

theorem operandAhead_cons (t : Token) (rest : List Token) :
    operandAhead (t :: rest) = t.kind.startsOperand := rfl

theorem permits_settle (h : permits style s = true) : permits (settle s tree style) s = true := by
  unfold settle
  split
  · simp [permits]
  · exact h

theorem settle_op (o : Operator) (l r : Tree) : settle s (.op o l r) style = some s := rfl

theorem settle_some : settle s tree (some s) = some s := by
  unfold settle
  split <;> rfl

theorem Step.bind_assoc (step : Step) (f g : Tree → Option Style → List Token → Step) :
    (step.bind f).bind g = step.bind fun tree style rest => (f tree style rest).bind g := by
  cases step <;> rfl

theorem primary_term {t : Token} (h : t.kind = .term) :
    primary style (t :: rest) = .read (.term t.value) style rest := by
  rw [primary]
  simp only [h]

theorem primary_not {t : Token} (h : t.kind = .not) :
    primary style (t :: rest) = (primary style rest).map .not := by
  rw [primary]
  simp only [h]

theorem operand_of_primary {style' : Option Style}
    (h : primary style tokens = .read tree style' rest) (hr : operandAhead rest = false) :
    operand style tokens = .read tree style' rest := by
  rw [operand_eq, h]
  exact if_neg (Bool.eq_false_iff.1 hr)

theorem climb_of_slack {bound : Nat} (h : Slack bound tokens) :
    climb tree bound style tokens = .read tree style tokens := by
  cases tokens with
  | nil => rw [climb]
  | cons t rest =>
    cases ho : t.kind.operator? with
    | none =>
      rw [climb]
      simp only [ho]
    | some o => rw [climb_cons ho, if_pos (h t rfl o ho)]

theorem exists_operator_of_not_slack {bound : Nat} (h : ¬ Slack bound tokens) :
    ∃ t rest o, tokens = t :: rest ∧ t.kind.operator? = some o ∧ bound < o.precedence := by
  cases tokens with
  | nil => exact absurd (fun t ht => by cases ht) h
  | cons t rest =>
    cases ho : t.kind.operator? with
    | none =>
      refine absurd ?_ h
      intro u hu o ho'
      cases hu
      cases ho.symm.trans ho'
    | some o =>
      refine ⟨t, rest, o, rfl, ho, ?_⟩
      by_cases hle : o.precedence ≤ bound
      · refine absurd ?_ h
        intro u hu o' ho'
        cases hu
        cases ho.symm.trans ho'
        exact hle
      · omega

theorem slack_two (tokens : List Token) : Slack 2 tokens := by
  intro t _ o _
  cases o <;> decide

theorem Slack.mono {m n : Nat} (h : Slack m tokens) (hle : m ≤ n) : Slack n tokens := by
  intro t ht o ho
  have hbound := h t ht o ho
  omega

theorem slack_cons_closing {c : Token} (h : c.kind = .closing) : Slack 0 (c :: rest) := by
  intro t ht o ho
  cases ht
  rw [h] at ho
  cases ho

end Parse

open Parse

/-- The folds of operators that a climb with `bound` goes on with. -/
def FoldsTo (bound : Nat) (tokens : List Token) (tree : Tree) (style : Option Style)
    (rest : List Token) : Prop :=
  ((operand style (tokens ++ rest)).bind fun left style rest => climb left bound style rest) =
    climb tree bound (settle .explicit tree style) rest

/-- How each phrase is read where no operand follows it. -/
def ReadAs (s : Style) (tokens : List Token) (tree : Tree) : Phrase → Prop
  | .primary => ∀ style rest, permits style s = true →
      primary style (tokens ++ rest) = .read tree (settle s tree style) rest
  | .conjunction => ∀ style rest bound, permits style .explicit = true →
      operandAhead rest = false → bound ≤ 1 → FoldsTo bound tokens tree style rest
  | .expression => ∀ style rest, permits style s = true → operandAhead rest = false →
      match s with
      | .explicit => Slack 1 rest → FoldsTo 0 tokens tree style rest
      | .implicit => operand style (tokens ++ rest) = .read tree (settle s tree style) rest

theorem expression_of_readAs {s : Style} {tokens : List Token} {tree : Tree}
    (h : ReadAs s tokens tree .expression) {style : Option Style} {rest : List Token}
    (hs : permits style s = true) (hr : operandAhead rest = false) (hslack : Slack 0 rest) :
    expression style (tokens ++ rest) = .read tree (settle s tree style) rest := by
  rw [expression_eq]
  have hread := h style rest hs hr
  cases s with
  | explicit => rw [hread (hslack.mono (Nat.zero_le 1)), climb_of_slack hslack]
  | implicit => rw [hread]; exact climb_of_slack hslack

theorem foldsTo_and {ls rs rest : List Token} {t : Token} {l r : Tree} {style : Option Style}
    {bound : Nat} (hl : ReadAs .explicit ls l .conjunction) (ht : t.kind = .and)
    (hr : ReadAs .explicit rs r .primary) (hs : permits style .explicit = true)
    (hrest : operandAhead rest = false) (hb : bound ≤ 1) :
    FoldsTo bound (ls ++ t :: rs) (.op .and l r) style rest := by
  have hahead : operandAhead (t :: (rs ++ rest)) = false := by
    rw [operandAhead_cons, ht]
    rfl
  have hleft := hl style (t :: (rs ++ rest)) bound hs hahead hb
  have hright := operand_of_primary (hr (some .explicit) rest rfl) hrest
  unfold FoldsTo at hleft ⊢
  rw [List.append_assoc, List.cons_append, hleft, climb_cons (o := .and) (by rw [ht]; rfl),
    if_neg (by simp only [Operator.precedence]; omega), if_pos (permits_settle hs), hright]
  simp only [Step.bind, climb_of_slack (slack_two _), Operator.precedence, settle_some, settle_op]

theorem foldsTo_or {ls rs rest : List Token} {t : Token} {l r : Tree} {style : Option Style}
    (hl : ReadAs .explicit ls l .expression) (ht : t.kind = .or)
    (hr : ReadAs .explicit rs r .conjunction) (hs : permits style .explicit = true)
    (hrest : operandAhead rest = false) (hslack : Slack 1 rest) :
    FoldsTo 0 (ls ++ t :: rs) (.op .or l r) style rest := by
  have hahead : operandAhead (t :: (rs ++ rest)) = false := by
    rw [operandAhead_cons, ht]
    rfl
  have hor : Slack 1 (t :: (rs ++ rest)) := by
    intro u hu o ho
    cases hu
    rw [ht] at ho
    cases ho
    decide
  have hleft := hl style (t :: (rs ++ rest)) hs hahead hor
  have hright := hr (some .explicit) rest 1 rfl hrest (Nat.le_refl 1)
  unfold FoldsTo at hleft hright ⊢
  rw [climb_of_slack hslack, settle_some] at hright
  rw [List.append_assoc, List.cons_append, hleft, climb_cons (o := .or) (by rw [ht]; rfl),
    if_neg (by decide), if_pos (permits_settle hs)]
  simp only [Operator.precedence, settle_op]
  rw [← Step.bind_assoc, hright]
  rfl

theorem operand_juxtaposed {ls rs rest : List Token} {l r : Tree} {style : Option Style}
    (hl : ReadAs .implicit ls l .primary) (hr : ReadAs .implicit rs r .expression)
    (hstart : operandAhead (rs ++ rest) = true) (hs : permits style .implicit = true)
    (hrest : operandAhead rest = false) :
    operand style (ls ++ rs ++ rest) = .read (.op .or l r) (some .implicit) rest := by
  have hleft := hl style (rs ++ rest) hs
  have hright : operand (some .implicit) (rs ++ rest) = .read r _ rest :=
    hr (some .implicit) rest rfl hrest
  rw [settle_some] at hright
  unfold operandAhead at hstart
  rw [List.append_assoc, operand_eq, hleft]
  simp only [Step.bind]
  rw [if_pos hstart, if_pos (permits_settle hs), hright]
  rfl

theorem primary_group {s : Style} {o c : Token} {ts rest : List Token} {tree : Tree}
    {style : Option Style} (ho : o.kind = .opening) (h : ReadAs s ts tree .expression)
    (hc : c.kind = .closing) (hs : permits style s = true) :
    primary style (o :: (ts ++ [c]) ++ rest) = .read tree (settle s tree style) rest := by
  have hahead : operandAhead (c :: rest) = false := by
    rw [operandAhead_cons, hc]
    rfl
  have hinner := expression_of_readAs h hs hahead (slack_cons_closing hc)
  rw [List.cons_append, List.append_assoc, List.singleton_append, primary_opening ho, hinner]
  simp only [Step.bind, close, if_pos hc]

/-- Each phrase of a grammar is read as the tree that it derives. -/
theorem Derives.readAs {s : Style} {phrase : Phrase} {tokens : List Token} {tree : Tree}
    (h : Derives s phrase tokens tree) : ReadAs s tokens tree phrase := by
  induction h with
  | term ht => exact fun style rest _ => primary_term ht
  | @not s t ts tree ht _ ih =>
    intro style rest hs
    rw [List.cons_append, primary_not ht, ih style rest hs]
    rfl
  | group ho _ hc ih => exact fun style rest hs => primary_group ho ih hc hs
  | single _ ih =>
    intro style rest bound hs hr _
    unfold FoldsTo
    rw [operand_of_primary (ih style rest hs) hr]
    rfl
  | and _ ht _ ihl ihr => exact fun style rest bound hs hr hb => foldsTo_and ihl ht ihr hs hr hb
  | conjunction _ ih => exact fun style rest hs hr _ => ih style rest 0 hs hr (Nat.zero_le 1)
  | or _ ht _ ihl ihr => exact fun style rest hs hr hslack => foldsTo_or ihl ht ihr hs hr hslack
  | operand _ ih => exact fun style rest hs hr => operand_of_primary (ih style rest hs) hr
  | @juxtaposed ls rs l r _ right ihl ihr =>
    intro style rest hs hr
    obtain ⟨t, ts, rfl, ht⟩ := right.starts
    exact operand_juxtaposed ihl ihr ht hs hr

/-- The tokens of a whole expression are read as a query. -/
theorem query_of_derives {s : Style} {tokens : List Token} {tree : Tree}
    (h : Derives s .expression tokens tree) :
    Parse.query tokens = .read tree (settle s tree none) [] := by
  have hread : Parse.expression none (tokens ++ []) = .read tree (settle s tree none) [] :=
    expression_of_readAs h.readAs rfl rfl fun t ht => by cases ht
  rw [List.append_nil] at hread
  simp only [Parse.query, hread]

end FuzzyQuery
