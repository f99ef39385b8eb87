import FuzzyQuery.Proofs.Automaton

/-!
# The automaton does what the parser does

A step of the parser stands between two states of the automaton. Before it an operand is needed,
or with a tree on the left none is needed; after it none is needed, and as many parentheses are
open as before. What is left of the tokens has the same verdict on both sides, whether the step
reads a tree or stops.
-/

namespace FuzzyQuery

open Parse

namespace Automaton

variable {style : Option Style} {t : Token} {tokens rest : List Token}

namespace State

theorem pin_eq (needed : Bool) (depth : Nat) (style : Option Style) (used : Style) :
    pin used ⟨needed, depth, style⟩ =
      if permits style used then .ok ⟨needed, depth, some used⟩ else .error .mixedStyle := by
  cases style with
  | none => rfl
  | some settled =>
    by_cases h : settled = used
    · simp [pin, permits, h]
    · simp [pin, permits, h]

theorem exists_step_of_needed (depth : Nat) (style : Option Style)
    (ht : t.kind.startsOperand = true) : ∃ σ, step t ⟨true, depth, style⟩ = .ok σ := by
  cases hkind : t.kind with
  | term | not | opening => simp [step, begin, hkind]
  | and | or | closing =>
    rw [hkind] at ht
    cases ht

/-- An operand that follows another one is taken as if an operator were written before it. -/
theorem step_operand (depth : Nat) (ht : t.kind.startsOperand = true) :
    step t ⟨false, depth, style⟩ =
      if permits style .implicit then step t ⟨true, depth, some .implicit⟩
      else .error .mixedStyle := by
  have hpin : step t ⟨false, depth, style⟩ = pin .implicit ⟨false, depth, style⟩ >>= begin t := by
    cases hkind : t.kind with
    | term | not | opening => simp [step, hkind]
    | and | or | closing =>
      rw [hkind] at ht
      cases ht
  rw [hpin, pin_eq]
  split
  · cases hkind : t.kind <;> simp [step, begin, hkind, bind, Except.bind]
  · rfl

theorem step_operator (depth : Nat) {o : Operator} (ho : t.kind.operator? = some o) :
    step t ⟨false, depth, style⟩ =
      if permits style .explicit then .ok ⟨true, depth, some .explicit⟩
      else .error .mixedStyle := by
  have hpin : step t ⟨false, depth, style⟩ =
      (pin .explicit ⟨false, depth, style⟩).map fun σ => { σ with needed := true } := by
    cases hkind : t.kind with
    | and | or => simp [step, hkind]
    | term | not | opening | closing =>
      rw [hkind] at ho
      cases ho
  rw [hpin, pin_eq]
  split
  · rfl
  · rfl

theorem step_closing (depth : Nat) (style : Option Style) (ht : t.kind = .closing) :
    step t ⟨false, depth, style⟩ =
      if 0 < depth then .ok ⟨false, depth - 1, style⟩
      else .error (.unexpectedToken (some t)) := by
  simp [step, ht]

end State

/-- What the automaton comes to from the place where a step leaves off, with `depth` parentheses
open there. -/
def resume (depth : Nat) : Step → Verdict
  | .read _ style rest => judge ⟨false, depth, style⟩ rest
  | .stopped fault style rest => .refused fault style rest

@[simp] theorem resume_map (depth : Nat) (f : Tree → Tree) (step : Step) :
    resume depth (step.map f) = resume depth step := by
  cases step <;> rfl

/-- To go on after a step is to go on from the state that it leaves. -/
theorem resume_bind {depth inner : Nat} {step : Step} {f : Tree → Option Style → List Token → Step}
    (h : ∀ tree style rest, step = .read tree style rest →
      resume depth (f tree style rest) = judge ⟨false, inner, style⟩ rest) :
    resume depth (step.bind f) = resume inner step := by
  cases step with
  | read tree style rest => exact h tree style rest rfl
  | stopped => rfl

theorem judge_operand (depth : Nat) (ht : t.kind.startsOperand = true) :
    judge ⟨false, depth, style⟩ (t :: rest) =
      if permits style .implicit then judge ⟨true, depth, some .implicit⟩ (t :: rest)
      else .refused .mixedStyle style (t :: rest) := by
  rw [judge, State.step_operand depth ht]
  by_cases hs : permits style .implicit = true
  · obtain ⟨σ, hσ⟩ := State.exists_step_of_needed depth (some .implicit) ht
    rw [if_pos hs, if_pos hs, judge, hσ]
  · rw [if_neg hs, if_neg hs]

theorem judge_operator (depth : Nat) {o : Operator} (ho : t.kind.operator? = some o) :
    judge ⟨false, depth, style⟩ (t :: rest) =
      if permits style .explicit then judge ⟨true, depth, some .explicit⟩ rest
      else .refused .mixedStyle style (t :: rest) := by
  rw [judge, State.step_operator depth ho]
  by_cases hs : permits style .explicit = true
  · rw [if_pos hs, if_pos hs]
  · rw [if_neg hs, if_neg hs]

/-- Where an expression ends, its group is closed, or else the query ends too early. -/
theorem resume_close (depth : Nat) (tree : Tree) (h : ∀ t ∈ tokens.head?, t.kind = .closing) :
    resume depth (close tree style tokens) = judge ⟨false, depth + 1, style⟩ tokens := by
  cases tokens with
  | nil => rfl
  | cons t rest =>
    have ht := h t rfl
    rw [close, if_pos ht, judge, State.step_closing _ _ ht, if_pos (by omega)]
    rfl

mutual

theorem resume_primary (depth : Nat) (style : Option Style) (tokens : List Token) :
    resume depth (primary style tokens) = judge ⟨true, depth, style⟩ tokens := by
  cases tokens with
  | nil => rw [primary]; rfl
  | cons t rest =>
    rw [judge]
    cases ht : t.kind with
    | term =>
      rw [primary_term ht]
      simp [State.step, State.begin, ht, resume]
    | not =>
      rw [primary_not ht, resume_map, resume_primary depth style rest]
      simp [State.step, State.begin, ht]
    | opening =>
      have hclose : ∀ tree style' rest', expression style rest = .read tree style' rest' →
          resume depth (close tree style' rest') = judge ⟨false, depth + 1, style'⟩ rest' := by
        intro tree style' rest' hread
        exact resume_close depth tree (closing_after_expression hread)
      rw [primary_opening ht, resume_bind hclose, resume_expression (depth + 1) style rest]
      simp [State.step, State.begin, ht]
    | and | or | closing =>
      rw [primary]
      simp [State.step, State.begin, ht, resume, unexpected]
termination_by 3 * tokens.length

theorem resume_operand (depth : Nat) (style : Option Style) (tokens : List Token) :
    resume depth (operand style tokens) = judge ⟨true, depth, style⟩ tokens := by
  rw [operand_eq, ← resume_primary depth style tokens]
  refine resume_bind fun first style' rest hread => ?_
  have hlt := (primary_leavesFewer style tokens).length_lt hread
  split
  · rename_i hahead
    cases rest with
    | nil => cases hahead
    | cons t more =>
      have ht : t.kind.startsOperand = true := hahead
      have hmore := resume_operand depth (some .implicit) (t :: more)
      rw [judge_operand depth ht, ← hmore]
      split
      · rw [resume_map]
      · rfl
  · rfl
termination_by 3 * tokens.length + 1

theorem resume_climb (depth : Nat) (left : Tree) (bound : Nat) (style : Option Style)
    (tokens : List Token) :
    resume depth (climb left bound style tokens) = judge ⟨false, depth, style⟩ tokens := by
  by_cases hslack : Slack bound tokens
  · rw [climb_of_slack hslack]
    rfl
  · obtain ⟨t, rest, o, rfl, ho, hb⟩ := exists_operator_of_not_slack hslack
    rw [climb_cons ho, if_neg (by omega), judge_operator depth ho]
    split
    · rw [← resume_operand depth (some .explicit) rest]
      refine resume_bind fun next style₁ more hnext => ?_
      have hlt := (operand_leavesFewer _ _).length_lt hnext
      rw [← resume_climb depth next o.precedence style₁ more]
      refine resume_bind fun right style₂ more' hright => ?_
      have hlt' := (climb_leavesFewer _ _ _ _).length_lt hright
      exact resume_climb depth (.op o left right) bound style₂ more'
    · rfl
termination_by 3 * tokens.length
decreasing_by all_goals subst_vars; simp only [List.length_cons]; omega

theorem resume_expression (depth : Nat) (style : Option Style) (tokens : List Token) :
    resume depth (expression style tokens) = judge ⟨true, depth, style⟩ tokens := by
  rw [expression_eq, ← resume_operand depth style tokens]
  refine resume_bind fun left style' rest hread => ?_
  have hlt := (operand_leavesFewer style tokens).length_lt hread
  exact resume_climb depth left 0 style' rest
termination_by 3 * tokens.length + 2

end

def Verdict.ofStep : Step → Verdict
  | .read _ style _ => .accepted style
  | .stopped fault style rest => .refused fault style rest

/-- A query that is read as an expression is accepted unless a parenthesis closes no group. -/
theorem judge_eq_ofStep (tokens : List Token) :
    judge .start tokens = .ofStep (Parse.query tokens) := by
  have hjudge : resume 0 (expression none tokens) = judge .start tokens :=
    resume_expression 0 none tokens
  rw [← hjudge, Parse.query]
  cases hread : expression none tokens with
  | stopped fault style rest => rfl
  | read tree style rest =>
    cases rest with
    | nil => rfl
    | cons t more =>
      have ht := closing_after_expression hread t rfl
      rw [resume, judge, State.step_closing 0 style ht]
      rfl

theorem report_query (stop : Reader) (tokens : List Token) :
    ((Session.outcome stop (Parse.query tokens)).map fun _ => (), (Parse.query tokens).style) =
      (judge .start tokens).report stop := by
  rw [judge_eq_ofStep]
  cases Parse.query tokens with
  | stopped fault style rest => rfl
  | read tree style rest =>
    have hmap : ((stop.checkEnd.map fun _ => tree).map fun _ => ()) = stop.checkEnd := by
      cases stop.checkEnd <;> rfl
    simp only [Session.outcome, hmap]
    rfl

end Automaton

/-- Whether a query is accepted, which error it is refused with and which style is left behind are
what the automaton tells when it is run over the tokens of the query as they are read. -/
theorem parse_eq_run (q : Text) :
    ((Session.ofText q).parse.1.map fun _ => (), (Session.ofText q).parse.2.style) =
      Automaton.run .start (Reader.ofText q) := by
  rw [Session.parse_ofText, Session.style_parse_ofText, Automaton.run_eq_report]
  exact Automaton.report_query _ _

-- The styles are found to be mixed before the character that starts no token is reached.
example : Automaton.run .start (Reader.ofText "a b | #".toList) =
    (.error (.ofSource "a b | #".toList .mixedStyle 4), some .implicit) := by
  rw [Automaton.run_eq_report, Reader.tokens_of_some (t := ⟨.term, ['a'], 0⟩) rfl,
    Reader.tokens_of_some (t := ⟨.term, ['b'], 2⟩) rfl,
    Reader.tokens_of_some (t := ⟨.or, ['|'], 4⟩) rfl, Reader.tokens_of_none rfl]
  rfl

end FuzzyQuery
