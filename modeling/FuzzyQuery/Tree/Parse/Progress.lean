import FuzzyQuery.Tree.Parse

/-!
# Every step takes a token

A step that reads an operand leaves fewer tokens than it was given, and one that folds operators
leaves no more. So the test in `Step.andThen` never fails, and the equations of the steps hold
without it.
-/

namespace FuzzyQuery

namespace Parse

def Step.bind (step : Step) (f : Tree → Option Style → List Token → Step) : Step :=
  match step with
  | .read tree style rest => f tree style rest
  | .stopped fault style rest => .stopped fault style rest

def Step.LeavesFewer (n : Nat) : Step → Prop
  | .read _ _ rest => rest.length < n
  | .stopped _ _ _ => True

theorem Step.LeavesFewer.mono {m n : Nat} {step : Step} (h : step.LeavesFewer m) (le : m ≤ n) :
    step.LeavesFewer n := by
  cases step with
  | read => exact Nat.lt_of_lt_of_le h le
  | stopped => trivial

theorem Step.LeavesFewer.map {n : Nat} {step : Step} (f : Tree → Tree) (h : step.LeavesFewer n) :
    (step.map f).LeavesFewer n := by
  cases step <;> exact h

theorem Step.LeavesFewer.andThen {m n : Nat} {step : Step}
    {f : Tree → Option Style → (rest : List Token) → rest.length < m → Step}
    (h : ∀ tree style rest lt, (f tree style rest lt).LeavesFewer n) :
    (step.andThen m f).LeavesFewer n := by
  cases step with
  | read tree style rest =>
    simp only [Step.andThen]
    split
    · exact h tree style rest _
    · trivial
  | stopped => trivial

theorem Step.LeavesFewer.andThen_eq {n : Nat} {step : Step} (h : step.LeavesFewer n)
    (f : Tree → Option Style → List Token → Step) :
    step.andThen n (fun tree style rest _ => f tree style rest) = step.bind f := by
  cases step with
  | read => exact dif_pos h
  | stopped => rfl

theorem close_leavesFewer (tree : Tree) (style : Option Style) (tokens : List Token) :
    (close tree style tokens).LeavesFewer tokens.length := by
  unfold close
  split
  · split
    · exact Nat.lt_succ_self _
    · trivial
  · trivial

theorem operand_leavesFewer (style : Option Style) (tokens : List Token) :
    (operand style tokens).LeavesFewer tokens.length := by
  rw [operand]
  refine .andThen fun first style rest lt => ?_
  split
  · split
    · exact ((operand_leavesFewer (some .implicit) rest).mono (Nat.le_of_lt lt)).map _
    · trivial
  · exact lt
termination_by tokens.length

theorem climb_leavesFewer (left : Tree) (bound : Nat) (style : Option Style)
    (tokens : List Token) : (climb left bound style tokens).LeavesFewer (tokens.length + 1) := by
  rw [climb.eq_def]
  split
  · exact Nat.lt_succ_self _
  · rename_i t rest
    split
    · exact Nat.lt_succ_self _
    · split
      · exact Nat.lt_succ_self _
      · split
        · refine .andThen fun next style more lt => .andThen fun right style more' lt' => ?_
          have shorter : more'.length < (t :: rest).length := by
            simp only [List.length_cons]; omega
          exact (climb_leavesFewer _ bound style more').mono (by omega)
        · trivial
termination_by tokens.length

theorem expression_leavesFewer (style : Option Style) (tokens : List Token) :
    (expression style tokens).LeavesFewer tokens.length := by
  rw [expression]
  exact .andThen fun left style rest lt => (climb_leavesFewer left 0 style rest).mono lt

theorem primary_leavesFewer (style : Option Style) (tokens : List Token) :
    (primary style tokens).LeavesFewer tokens.length := by
  induction tokens generalizing style with
  | nil => rw [primary]; trivial
  | cons t rest ih =>
    rw [primary]
    split
    · exact Nat.lt_succ_self _
    · exact ((ih style).mono (Nat.le_succ _)).map _
    · exact .andThen fun tree style more lt =>
        (close_leavesFewer tree style more).mono (by simp only [List.length_cons]; omega)
    all_goals trivial

theorem primary_opening {style : Option Style} {t : Token} {rest : List Token}
    (h : t.kind = .opening) : primary style (t :: rest) = (expression style rest).bind close := by
  rw [primary]
  simp only [h]
  exact (expression_leavesFewer style rest).andThen_eq close

theorem operand_eq (style : Option Style) (tokens : List Token) :
    operand style tokens = (primary style tokens).bind fun first style rest =>
      if rest.head?.any (·.kind.startsOperand) then
        if permits style .implicit then
          (operand (some .implicit) rest).map (.op .or first)
        else .stopped .mixedStyle style rest
      else .read first style rest := by
  rw [operand]
  exact (primary_leavesFewer style tokens).andThen_eq _

theorem climb_cons {left : Tree} {bound : Nat} {style : Option Style} {t : Token}
    {rest : List Token} {o : Operator} (h : t.kind.operator? = some o) :
    climb left bound style (t :: rest) =
      if o.precedence ≤ bound then .read left style (t :: rest)
      else if permits style .explicit then
        (operand (some .explicit) rest).bind fun next style more =>
          (climb next o.precedence style more).bind fun right style more =>
            climb (.op o left right) bound style more
      else .stopped .mixedStyle style (t :: rest) := by
  have inner next style more := (climb_leavesFewer next o.precedence style more).andThen_eq
    fun right style more => climb (.op o left right) bound style more
  rw [climb, h, ← (operand_leavesFewer (some .explicit) rest).andThen_eq]
  simp only [inner]

theorem expression_eq (style : Option Style) (tokens : List Token) :
    expression style tokens =
      (operand style tokens).bind fun left style rest => climb left 0 style rest := by
  rw [expression]
  exact (operand_leavesFewer style tokens).andThen_eq _

end Parse

end FuzzyQuery
