import FuzzyQuery.Proofs.Automaton.Completion
import Mathlib.Data.List.DropRight

/-!
# Where the caret stands

An excerpt shows a query and puts a caret into the line below it, as far to the right as the place
that is blamed is behind the beginning of the query. A query in one line has the place right above
the caret. A quoted term may hold line breaks, and they are shown as they stand: each of them makes
the excerpt one line longer, and one in front of the place puts the place into a later line, where
it is further to the left than the caret.
-/

namespace FuzzyQuery

namespace Text

def lines (t : Text) : List Text := t.splitOn '\n'

/-- How many characters of its line stand before a place of the text. -/
def column (t : Text) (place : Nat) : Nat := ((t.take place).rtakeWhile (· != '\n')).length

theorem length_lines (t : Text) : t.lines.length = t.count '\n' + 1 := by
  unfold lines
  induction t with
  | nil => rfl
  | cons c t ih =>
    rw [List.splitOn_cons_eq_if_modifyHead]
    by_cases hc : c = '\n'
    · simp [hc, ih]
    · simp [hc, ih]

theorem lines_eq_singleton_iff {t : Text} : t.lines = [t] ↔ '\n' ∉ t := by
  refine ⟨fun h => ?_, List.splitOn_eq_singleton⟩
  have hlength := t.length_lines
  rw [h, List.length_singleton] at hlength
  exact List.count_eq_zero.1 (by omega)

theorem lines_append_line (front : Text) {line : Text} (h : '\n' ∉ line) :
    lines (front ++ '\n' :: line) = front.lines ++ [line] := by
  unfold lines
  rw [List.splitOn_append_cons_self, List.splitOn_eq_singleton h]

/-- In the first line the columns count from the beginning of the text. -/
theorem column_eq_iff {t : Text} {place : Nat} (h : place ≤ t.length) :
    t.column place = place ↔ '\n' ∉ t.take place := by
  have hlength : (t.take place).length = place := List.length_take_of_le h
  have hwhole : t.column place = place ↔
      (t.take place).rtakeWhile (· != '\n') = t.take place := by
    constructor
    · intro hcolumn
      exact (List.rtakeWhile_suffix _ _).eq_of_length (hcolumn.trans hlength.symm)
    · intro hrun
      rw [column, hrun, hlength]
  rw [hwhole, List.rtakeWhile_eq_self_iff]
  constructor
  · intro hall hmem
    simpa using hall '\n' hmem
  · rintro hmem c hc
    simpa using ne_of_mem_of_not_mem hc hmem

theorem column_append_line (front : Text) {line : Text} (h : '\n' ∉ line) (after : Text) :
    column (front ++ '\n' :: line ++ after) (front ++ '\n' :: line).length = line.length := by
  have hline : ∀ c ∈ line.reverse, (c != '\n') = true := by
    intro c hc
    simpa using ne_of_mem_of_not_mem (List.mem_reverse.1 hc) h
  have hreverse : (front ++ '\n' :: line).reverse = line.reverse ++ '\n' :: front.reverse := by
    simp
  rw [column, List.take_left, List.rtakeWhile, hreverse,
    takeWhile_append_of_stop hline (by simp), List.reverse_reverse]

end Text

theorem newline_not_mem_spaces (n : Nat) : '\n' ∉ Text.spaces n := by
  intro h
  cases List.eq_of_mem_replicate h

namespace Excerpt

variable {q : Text} {p : Nat}

theorem render_eq (q : Text) (p : Nat) :
    render ⟨q, p⟩ = Text.spaces 2 ++ q ++ '\n' :: Text.spaces (p + 2) ++ ['^'] := by
  have hwidth : ((p : Int) + 2).toNat = p + 2 := by omega
  simp [render, hwidth]

theorem newline_not_mem_caret (p : Nat) : '\n' ∉ Text.spaces (p + 2) ++ ['^'] := by
  rw [List.mem_append, not_or]
  exact ⟨newline_not_mem_spaces (p + 2), by decide⟩

/-- The caret is alone in the last line. -/
theorem lines_render (q : Text) (p : Nat) :
    (render ⟨q, p⟩).lines = (Text.spaces 2 ++ q).lines ++ [Text.spaces (p + 2) ++ ['^']] := by
  rw [render_eq, List.append_assoc _ (_ :: _), List.cons_append]
  exact Text.lines_append_line _ (newline_not_mem_caret p)

theorem length_lines_render (q : Text) (p : Nat) :
    (render ⟨q, p⟩).lines.length = q.count '\n' + 2 := by
  have hindent : (Text.spaces 2).count '\n' = 0 :=
    List.count_eq_zero.2 (newline_not_mem_spaces 2)
  rw [lines_render, List.length_append, Text.length_lines, List.count_append, hindent]
  simp

theorem lines_render_eq_iff :
    (render ⟨q, p⟩).lines = [Text.spaces 2 ++ q, Text.spaces (p + 2) ++ ['^']] ↔ '\n' ∉ q := by
  have hlines : (render ⟨q, p⟩).lines = [Text.spaces 2 ++ q] ++ [Text.spaces (p + 2) ++ ['^']] ↔
      '\n' ∉ q := by
    rw [lines_render, List.append_cancel_right_eq, Text.lines_eq_singleton_iff, List.mem_append,
      not_or]
    exact and_iff_right (newline_not_mem_spaces 2)
  exact hlines

theorem column_caret (q : Text) (p : Nat) :
    (render ⟨q, p⟩).column ((render ⟨q, p⟩).length - 1) = p + 2 := by
  have hcolumn := Text.column_append_line (Text.spaces 2 ++ q) (newline_not_mem_spaces (p + 2)) ['^']
  have hplace : (render ⟨q, p⟩).length - 1 =
      (Text.spaces 2 ++ q ++ '\n' :: Text.spaces (p + 2)).length := by
    rw [render_eq, List.length_append, List.length_singleton, Nat.add_sub_cancel]
  rw [hplace, render_eq, hcolumn, Text.length_spaces]

/-- Up to the place that is marked the excerpt is the indented query. -/
theorem take_render (h : p ≤ q.length) :
    (render ⟨q, p⟩).take (p + 2) = Text.spaces 2 ++ q.take p := by
  have hskip (more : Text) : (Text.spaces 2 ++ more).take (p + 2) = Text.spaces 2 ++ more.take p := by
    have hlength : (Text.spaces 2).length = 2 := Text.length_spaces 2
    rw [List.take_append, List.take_of_length_le (by omega), hlength, Nat.add_sub_cancel]
  rw [render_eq, List.append_assoc, List.append_assoc, hskip, List.take_append_of_le_length h]

theorem column_place_iff (h : p ≤ q.length) :
    (render ⟨q, p⟩).column (p + 2) = p + 2 ↔ '\n' ∉ q.take p := by
  have hplace : p + 2 ≤ (render ⟨q, p⟩).length := by
    rw [render_eq]
    simp only [List.length_append, List.length_cons, Text.length_spaces]
    omega
  rw [Text.column_eq_iff hplace, take_render h, List.mem_append, not_or]
  exact and_iff_right (newline_not_mem_spaces 2)

end Excerpt

/-- Every error of a query marks the place that it blames, which is a place in the query, or the end
of it when the end is what is blamed. -/
theorem exists_marked_place {q : Text} {e : QueryError}
    (h : tokenize q = .error e ∨ parse q = .error e) :
    ∃ fault, ∃ p : Nat, e = .ofSource q fault p ∧
      (p < q.length ∧ ¬ e.BlamesEnd q ∨ p = q.length ∧ e.BlamesEnd q) := by
  obtain h | h := h
  · obtain ⟨start, c, t, rfl, -, rfl, -⟩ := tokenize_eq_error_iff.1 h
    have hlt : start.length < (start ++ c :: t).length := by simp
    exact ⟨_, _, rfl, Or.inl ⟨hlt, QueryError.not_blamesEnd hlt⟩⟩
  · cases Automaton.refusal_of_parse h with
    | token htokens leads step =>
      have hu := QueryError.blames_of_step htokens step
      have hlt := Nat.lt_of_lt_of_le hu.lt_stop (stop_le_length q)
      exact ⟨_, _, rfl, Or.inl ⟨hlt, hu.not_blamesEnd⟩⟩
    | early _ _ finish =>
      exact ⟨_, _, rfl, Or.inr ⟨rfl, rfl, Automaton.State.fault_of_finish finish⟩⟩
    | @character start tail c σ hq _ _ _ =>
      have hlt : start.length < q.length := by
        rw [hq]
        simp
      exact ⟨_, _, rfl, Or.inl ⟨hlt, QueryError.not_blamesEnd hlt⟩⟩

/-- The excerpt of an error has the caret in a line of its own, behind the indented query, with as
many characters in front of it as there are in front of the place that is blamed. This place is in
the query, or it is the end of it where the end is blamed. The excerpt has two lines exactly when the
query has no line break; the caret is in the column of the place exactly when there is no line break
in front of this place. -/
theorem caret_below_blamed_iff {q : Text} {e : QueryError}
    (h : tokenize q = .error e ∨ parse q = .error e) :
    ∃ (x : Excerpt) (p : Nat), e.excerpt = some x ∧ e.position = p ∧
      (p < q.length ∧ ¬ e.BlamesEnd q ∨ p = q.length ∧ e.BlamesEnd q) ∧
      x.render = Text.spaces 2 ++ q ++ '\n' :: Text.spaces (p + 2) ++ ['^'] ∧
      x.render.lines.length = q.count '\n' + 2 ∧
      (x.render.lines = [Text.spaces 2 ++ q, Text.spaces (p + 2) ++ ['^']] ↔ '\n' ∉ q) ∧
      (x.render.column (x.render.length - 1) = x.render.column (p + 2) ↔ '\n' ∉ q.take p) := by
  obtain ⟨fault, p, rfl, hplace⟩ := exists_marked_place h
  have hle : p ≤ q.length := by omega
  refine ⟨⟨q, p⟩, p, rfl, rfl, hplace, Excerpt.render_eq q p, Excerpt.length_lines_render q p,
    Excerpt.lines_render_eq_iff, ?_⟩
  rw [Excerpt.column_caret, eq_comm, Excerpt.column_place_iff hle]

/-- The line break stands behind the parenthesis that is blamed: a third line, and the caret is in
the right column. -/
theorem caret_below_blamed_closing :
    let q := "a) \"\n\"".toList
    let e := QueryError.ofSource q (.unexpectedToken (some ⟨.closing, [')'], 1⟩)) 1
    parse q = .error e ∧ ∃ x, e.excerpt = some x ∧ x.render.lines.length = 3 ∧
      x.render.column (x.render.length - 1) = x.render.column 3 := by
  intro q e
  have herror : parse q = .error e := by decide +kernel
  obtain ⟨x, p, hx, hp, -, -, hlines, -, hcolumn⟩ := caret_below_blamed_iff (Or.inr herror)
  obtain rfl : p = 1 := (Int.ofNat_inj.1 hp).symm
  exact ⟨herror, x, hx, hlines, hcolumn.2 (by decide)⟩

/-- The line break stands in front of the character that is blamed: a third line, and the caret is
in another column. -/
theorem caret_beside_blamed_character :
    let q := "\"a\nb\" #".toList
    let e := QueryError.ofSource q (.unexpectedCharacter ['#']) 6
    tokenize q = .error e ∧ parse q = .error e ∧ q[6]? = some '#' ∧
      ∃ x, e.excerpt = some x ∧
        x.render.lines = ["  \"a".toList, "b\" #".toList, "        ^".toList] ∧
        x.render.lines.length ≠ 2 ∧ x.render[8]? = some '#' ∧
        x.render.column (x.render.length - 1) = 8 ∧ x.render.column 8 = 3 :=
  ⟨by decide +kernel, by decide +kernel, rfl, _, rfl, by decide +kernel, by decide +kernel,
    by decide +kernel, by decide +kernel, by decide +kernel⟩

end FuzzyQuery
