import FuzzyQuery.Proofs.Automaton.Completion

/-!
# The automaton inside a group

What stands before a group has a bearing on the tokens inside in two ways only. The parentheses that
are open stay open, and a style that has been settled is kept: it makes no difference where the
group would leave it behind anyway, and otherwise the styles are found to be mixed within the group.
So from the pass over a query one can tell the pass over the same query as a part of another one.
-/

namespace FuzzyQuery

open Parse

namespace Automaton

def begun (t : Token) (depth : Nat) (style : Option Style) : State :=
  ⟨t.kind != .term, if t.kind = .opening then depth + 1 else depth, style⟩

inductive Steps (t : Token) : State → State → Prop
  | operand {depth : Nat} {style : Option Style} (ht : t.kind.startsOperand = true) :
      Steps t ⟨true, depth, style⟩ (begun t depth style)
  | juxtaposed {depth : Nat} {style : Option Style} (ht : t.kind.startsOperand = true)
      (hs : permits style .implicit = true) :
      Steps t ⟨false, depth, style⟩ (begun t depth (some .implicit))
  | operator {depth : Nat} {style : Option Style} {o : Operator} (ho : t.kind.operator? = some o)
      (hs : permits style .explicit = true) :
      Steps t ⟨false, depth, style⟩ ⟨true, depth, some .explicit⟩
  | closing {depth : Nat} {style : Option Style} (ht : t.kind = .closing) :
      Steps t ⟨false, depth + 1, style⟩ ⟨false, depth, style⟩

variable {σ σ' : State} {t : Token} {s : Style} {style : Option Style} {tokens : List Token}

namespace State

theorem step_begun (depth : Nat) (style : Option Style) (ht : t.kind.startsOperand = true) :
    step t ⟨true, depth, style⟩ = .ok (begun t depth style) := by
  cases hkind : t.kind with
  | term | not | opening => simp [step, begin, begun, hkind]
  | and | or | closing =>
    rw [hkind] at ht
    cases ht

theorem startsOperand_of_step {depth : Nat} (h : step t ⟨true, depth, style⟩ = .ok σ') :
    t.kind.startsOperand = true := by
  cases hkind : t.kind with
  | term | not | opening => rfl
  | and | or | closing => simp [step, begin, hkind] at h

end State

theorem step_eq_ok_iff : σ.step t = .ok σ' ↔ Steps t σ σ' := by
  obtain ⟨needed, depth, style⟩ := σ
  constructor
  · intro h
    cases needed with
    | true =>
      have ht := State.startsOperand_of_step h
      rw [State.step_begun depth style ht] at h
      cases h
      exact .operand ht
    | false =>
      cases hkind : t.kind with
      | term | not | opening =>
        have ht : t.kind.startsOperand = true := by rw [hkind]; rfl
        rw [State.step_operand depth ht, State.step_begun depth _ ht] at h
        split at h
        · cases h
          exact .juxtaposed ht ‹_›
        · cases h
      | and | or =>
        obtain ⟨o, ho⟩ : ∃ o, t.kind.operator? = some o := by rw [hkind]; exact ⟨_, rfl⟩
        rw [State.step_operator depth ho] at h
        split at h
        · cases h
          exact .operator ho ‹_›
        · cases h
      | closing =>
        rw [State.step_closing depth style hkind] at h
        cases depth with
        | zero => cases h
        | succ depth =>
          cases h
          exact .closing hkind
  · intro h
    cases h with
    | operand ht => exact State.step_begun depth style ht
    | juxtaposed ht hs => rw [State.step_operand depth ht, if_pos hs, State.step_begun depth _ ht]
    | operator ho hs => rw [State.step_operator depth ho, if_pos hs]
    | closing ht => rw [State.step_closing _ _ ht, if_pos (Nat.succ_pos _)]; rfl

namespace State

def deeper (n : Nat) (σ : State) : State := { σ with depth := σ.depth + n }

def settled (s : Style) (σ : State) : State := { σ with style := some s }

end State

theorem deeper_begun (n depth : Nat) (style : Option Style) :
    (begun t depth style).deeper n = begun t (depth + n) style := by
  unfold begun State.deeper
  split
  · rw [Nat.add_right_comm]
  · rfl

/-- More open parentheses make no difference to a step. -/
theorem Steps.deeper (h : Steps t σ σ') (n : Nat) : Steps t (σ.deeper n) (σ'.deeper n) := by
  cases h with
  | operand ht =>
    rw [deeper_begun]
    exact .operand ht
  | juxtaposed ht hs =>
    rw [deeper_begun]
    exact .juxtaposed ht hs
  | operator ho hs => exact .operator ho hs
  | @closing depth style ht =>
    have hdepth : depth + 1 + n = depth + n + 1 := Nat.add_right_comm depth 1 n
    unfold State.deeper
    rw [hdepth]
    exact .closing ht

theorem permits_some_iff {u : Style} : permits (some u) s = true ↔ u = s := by
  simp [permits]

theorem permits_some_comm {u : Style} : permits (some u) s = permits (some s) u :=
  Bool.eq_iff_iff.2 (permits_some_iff.trans (eq_comm.trans permits_some_iff.symm))

/-- A style that is still open after a step may have been settled before. -/
theorem Steps.settled (h : Steps t σ σ') (hs : permits σ'.style s = true) :
    Steps t (σ.settled s) (σ'.settled s) := by
  cases h with
  | operand ht => exact .operand ht
  | closing ht => exact .closing ht
  | juxtaposed ht hopen =>
    obtain rfl := permits_some_iff.1 hs
    exact .juxtaposed ht rfl
  | operator ho hopen =>
    obtain rfl := permits_some_iff.1 hs
    exact .operator ho rfl

/-- A step that closes a style mixes it with the one that has been settled. -/
theorem Steps.step_of_not_permits (h : Steps t σ σ') (hs : permits σ.style s = true)
    (hs' : ¬ permits σ'.style s = true) : (σ.settled s).step t = .error .mixedStyle := by
  cases h with
  | operand | closing => exact absurd hs hs'
  | @juxtaposed depth _ ht _ =>
    have hmixed : ¬ permits (some s) .implicit = true := fun hu => hs' (permits_some_comm.trans hu)
    exact (State.step_operand depth ht).trans (if_neg hmixed)
  | @operator depth _ _ ho _ =>
    have hmixed : ¬ permits (some s) .explicit = true := fun hu => hs' (permits_some_comm.trans hu)
    exact (State.step_operator depth ho).trans (if_neg hmixed)

theorem Leads.deeper (h : Leads σ tokens σ') (n : Nat) :
    Leads (σ.deeper n) tokens (σ'.deeper n) := by
  induction h with
  | nil σ => exact .nil _
  | cons step _ ih => exact .cons (step_eq_ok_iff.2 ((step_eq_ok_iff.1 step).deeper n)) ih

/-- Where a style is closed on the way, the pass in which it has been settled stops. -/
theorem Leads.judge_of_not_permits (h : Leads σ tokens σ') (hs : permits σ.style s = true)
    (hs' : ¬ permits σ'.style s = true) (more : List Token) :
    ∃ rest, judge (σ.settled s) (tokens ++ more) = .refused .mixedStyle (some s) rest := by
  induction h with
  | nil => exact absurd hs hs'
  | @cons σ σ₁ σ' t ts step _ ih =>
    have hstep := step_eq_ok_iff.1 step
    rw [List.cons_append, judge]
    by_cases hopen : permits σ₁.style s = true
    · rw [step_eq_ok_iff.2 (hstep.settled hopen)]
      exact ih hopen hs'
    · rw [hstep.step_of_not_permits hs hopen]
      exact ⟨_, rfl⟩

theorem deeper_of_flat (n : Nat) (needed : Bool) (style : Option Style) :
    State.deeper n ⟨needed, 0, style⟩ = ⟨needed, n, style⟩ := by
  rw [State.deeper, Nat.zero_add]

variable {o c : Token}

theorem judge_opening (ho : o.kind = .opening) (depth : Nat) (style : Option Style)
    (rest : List Token) :
    judge ⟨true, depth, style⟩ (o :: rest) = judge ⟨true, depth + 1, style⟩ rest := by
  rw [judge, State.step_begun depth style (by rw [ho]; rfl), begun, ho]
  rfl

theorem judge_closing (hc : c.kind = .closing) (depth : Nat) (style : Option Style)
    (rest : List Token) :
    judge ⟨false, depth + 1, style⟩ (c :: rest) = judge ⟨false, depth, style⟩ rest := by
  rw [judge, State.step_closing _ _ hc, if_pos (Nat.succ_pos depth)]
  rfl

/-- Before any style has been settled, a group leaves behind the style that its query has alone. -/
theorem Leads.judge_group (h : Leads .start tokens ⟨false, 0, style⟩) (ho : o.kind = .opening)
    (hc : c.kind = .closing) (depth : Nat) (rest : List Token) :
    judge ⟨true, depth, none⟩ (o :: (tokens ++ c :: rest)) = judge ⟨false, depth, style⟩ rest := by
  have hinside := h.deeper (depth + 1)
  rw [State.start, deeper_of_flat, deeper_of_flat] at hinside
  rw [judge_opening ho, hinside.judge_append, judge_closing hc]

/-- After the style has been settled, a group whose query has the other one is refused. -/
theorem Leads.judge_group_of_not_permits (h : Leads .start tokens ⟨false, 0, style⟩)
    (ho : o.kind = .opening) (hs : ¬ permits style s = true) (depth : Nat) (more : List Token) :
    ∃ rest, judge ⟨true, depth, some s⟩ (o :: (tokens ++ more)) =
      .refused .mixedStyle (some s) rest := by
  have hinside := h.deeper (depth + 1)
  rw [State.start, deeper_of_flat, deeper_of_flat] at hinside
  rw [judge_opening ho]
  exact hinside.judge_of_not_permits rfl hs more

end Automaton

end FuzzyQuery
