import FuzzyQuery.Text.Quoted

/-!
# The bodies of quoted terms

`Decodes body value` reads the body of a closed term: a backslash makes the next character literal,
and no bare quotation mark occurs. `Runs` reads the body of a term that is never closed, where a
backslash at the very end stands for nothing. Reading ends at the first bare quotation mark, and
when there is none it takes up the whole text.
-/

namespace FuzzyQuery.Quoted

inductive Decodes : Text → Text → Prop
  | nil : Decodes [] []
  | plain {c : Char} {body value : Text} (hb : c ≠ '\\') (hq : c ≠ '"')
      (more : Decodes body value) : Decodes (c :: body) (c :: value)
  | escaped {c : Char} {body value : Text} (more : Decodes body value) :
      Decodes ('\\' :: c :: body) (c :: value)

def Runs (body value : Text) : Prop :=
  Decodes body value ∨ ∃ start, body = start ++ ['\\'] ∧ Decodes start value

theorem read_plain {c : Char} (hb : c ≠ '\\') (hq : c ≠ '"') (t : Text) :
    read (c :: t) = (c :: (read t).1, (read t).2 + 1) := by
  rw [read, if_neg hq]
  · intro h; exact absurd h hb
  · intro d s h; exact absurd h hb

theorem read_quote (t : Text) : read ('"' :: t) = ([], 1) := by
  rw [read, if_pos rfl]
  · intro h; exact absurd h (by decide)
  · intro d s h; exact absurd h (by decide)

theorem read_append {body value : Text} (h : Decodes body value) (rest : Text) :
    read (body ++ rest) = (value ++ (read rest).1, body.length + (read rest).2) := by
  induction h with
  | nil => rw [List.nil_append, List.nil_append, List.length_nil, Nat.zero_add]
  | plain hb hq more ih =>
    rw [List.cons_append, read_plain hb hq, ih, List.length_cons, Nat.add_right_comm]
    rfl
  | escaped more ih =>
    simp only [List.cons_append, read, ih, List.length_cons]
    rw [Nat.add_right_comm]

theorem read_closed {body value : Text} (h : Decodes body value) (after : Text) :
    read (body ++ '"' :: after) = (value, body.length + 1) := by
  rw [read_append h, read_quote, List.append_nil]

theorem read_unclosed {body value : Text} (h : Runs body value) :
    read body = (value, body.length) := by
  rcases h with h | ⟨start, rfl, h⟩
  · simpa [read] using read_append h []
  · simpa [read] using read_append h ['\\']

theorem Runs.plain {c : Char} {body value : Text} (hb : c ≠ '\\') (hq : c ≠ '"')
    (h : Runs body value) : Runs (c :: body) (c :: value) := by
  rcases h with h | ⟨start, rfl, h⟩
  · exact Or.inl (.plain hb hq h)
  · exact Or.inr ⟨c :: start, rfl, .plain hb hq h⟩

theorem Runs.escaped {c : Char} {body value : Text} (h : Runs body value) :
    Runs ('\\' :: c :: body) (c :: value) := by
  rcases h with h | ⟨start, rfl, h⟩
  · exact Or.inl (.escaped h)
  · exact Or.inr ⟨'\\' :: c :: start, rfl, .escaped h⟩

/-- Either a bare quotation mark closes the term, or the term takes up the rest of the text. -/
theorem read_cases (t : Text) :
    (∃ body after, t = body ++ '"' :: after ∧ Decodes body (read t).1 ∧
      (read t).2 = body.length + 1) ∨
    (Runs t (read t).1 ∧ (read t).2 = t.length) := by
  fun_induction read t with
  | case1 => exact Or.inr ⟨Or.inl .nil, rfl⟩
  | case2 => exact Or.inr ⟨Or.inr ⟨[], rfl, .nil⟩, rfl⟩
  | case3 c t more ih =>
    rcases ih with ⟨body, after, ht, hd, hw⟩ | ⟨hr, hw⟩
    · refine Or.inl ⟨'\\' :: c :: body, after, by rw [ht]; rfl, .escaped hd, ?_⟩
      simp only [hw, more, List.length_cons]
    · exact Or.inr ⟨hr.escaped, by simp only [hw, more, List.length_cons]⟩
  | case4 t => exact Or.inl ⟨[], t, rfl, .nil, rfl⟩
  | case5 c t h₁ h₂ hq more ih =>
    have hb : c ≠ '\\' := by
      rintro rfl
      cases t with
      | nil => exact h₁ rfl rfl
      | cons d s => exact h₂ d s rfl rfl
    rcases ih with ⟨body, after, ht, hd, hw⟩ | ⟨hr, hw⟩
    · refine Or.inl ⟨c :: body, after, by rw [ht]; rfl, .plain hb hq hd, ?_⟩
      simp only [hw, more, List.length_cons]
    · exact Or.inr ⟨hr.plain hb hq, by simp only [hw, more, List.length_cons]⟩

/-- Escaping a text gives a body that decodes to it. -/
theorem decodes_escape (t : Text) : Decodes (escape t) t := by
  induction t with
  | nil => exact .nil
  | cons c t ih =>
    unfold escape
    rw [List.flatMap_cons]
    by_cases h : c = '\\' ∨ c = '"'
    · rw [if_pos h]
      exact .escaped ih
    · rw [if_neg h]
      exact .plain (fun hb => h (Or.inl hb)) (fun hq => h (Or.inr hq)) ih

end FuzzyQuery.Quoted
