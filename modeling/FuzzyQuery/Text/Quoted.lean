import FuzzyQuery.Text

/-!
# Quoted terms

Between quotation marks a term holds any text. A backslash makes the next character literal, and
a quoted term that is not closed runs to the end of the query.
-/

namespace FuzzyQuery.Quoted

def escape (t : Text) : Text :=
  t.flatMap fun c => if c = '\\' ∨ c = '"' then ['\\', c] else [c]

def encode (t : Text) : Text := '"' :: escape t ++ ['"']

/-- The value of a quoted term and the number of characters read, of the text that follows the
opening quotation mark. The closing mark counts as read. -/
def read : Text → Text × Nat
  | [] => ([], 0)
  | ['\\'] => ([], 1)
  | '\\' :: c :: t =>
    let more := read t
    (c :: more.1, more.2 + 2)
  | c :: t =>
    if c = '"' then ([], 1)
    else
      let more := read t
      (c :: more.1, more.2 + 1)

theorem width_read_le (t : Text) : (read t).2 ≤ t.length := by
  fun_induction read t with
  | case1 => simp
  | case2 => simp
  | case3 c t more ih => exact Nat.add_le_add_right ih 2
  | case4 t => simp
  | case5 c t _ _ _ more ih => exact Nat.add_le_add_right ih 1

end FuzzyQuery.Quoted
