import FuzzyQuery.Proofs.Stream
import Mathlib.Algebra.Ring.Parity
import Mathlib.Data.List.DropRight
import Mathlib.Order.Bounds.Basic

/-!
# Where a quoted term ends

Backslashes in front of a quotation mark protect one another in pairs, so whether the mark is bare
hangs on the parity of their number. A quoted term is closed by the first bare mark behind the
opening one, and without a bare mark it takes up the rest of the query. Its value is the text in
between with the protecting backslashes left out.
-/

namespace FuzzyQuery

namespace Quoted

def backslashes (t : Text) : Nat := (t.rtakeWhile (· == '\\')).length

/-- At this place stands a quotation mark, right behind an even number of backslashes. -/
structure BareMark (t : Text) (place : Nat) : Prop where
  mark : t[place]? = some '"'
  even : Even (backslashes (t.take place))

/-- Every backslash together with the character behind it stands for this character. One that is
left over at the end stands for nothing. -/
def unescape : Text → Text
  | [] => []
  | ['\\'] => []
  | '\\' :: c :: t => c :: unescape t
  | c :: t => c :: unescape t

theorem backslashes_concat (t : Text) (c : Char) :
    backslashes (t ++ [c]) = if c = '\\' then backslashes t + 1 else 0 := by
  rw [backslashes, List.rtakeWhile_concat]
  by_cases hc : c = '\\'
  · simp [hc, backslashes]
  · simp [hc]

theorem backslashes_concat_of_ne {c : Char} (h : c ≠ '\\') (t : Text) :
    backslashes (t ++ [c]) = 0 := by
  rw [backslashes_concat, if_neg h]

theorem unescape_plain {c : Char} (h : c ≠ '\\') (t : Text) :
    unescape (c :: t) = c :: unescape t := by
  rw [unescape]
  · exact fun hc => absurd hc h
  · exact fun _ _ hc => absurd hc h

theorem length_unescape_le (t : Text) : (unescape t).length ≤ t.length := by
  fun_induction unescape t with
  | case1 => exact Nat.le_refl 0
  | case2 => exact Nat.zero_le _
  | case3 c t ih => simp only [List.length_cons]; omega
  | case4 c t _ _ ih => exact Nat.succ_le_succ ih

theorem length_unescape_lt {t : Text} (h : '\\' ∈ t) : (unescape t).length < t.length := by
  fun_induction unescape t with
  | case1 => exact absurd h List.not_mem_nil
  | case2 => exact Nat.one_pos
  | case3 c t ih =>
    have hle := length_unescape_le t
    simp only [List.length_cons]
    omega
  | case4 c t h₁ h₂ ih =>
    obtain hc | ht := List.mem_cons.1 h
    · cases t with
      | nil => exact absurd rfl (h₁ hc.symm)
      | cons d t => exact (h₂ d t hc.symm rfl).elim
    · exact Nat.succ_lt_succ (ih ht)

/-- Only a text without backslashes is its own value. -/
theorem unescape_eq_self_iff {t : Text} : unescape t = t ↔ '\\' ∉ t := by
  constructor
  · intro h hmem
    have hlt := length_unescape_lt hmem
    rw [h] at hlt
    exact Nat.lt_irrefl _ hlt
  · intro h
    induction t with
    | nil => rfl
    | cons c t ih =>
      obtain ⟨hc, ht⟩ := List.ne_and_not_mem_of_not_mem_cons h
      rw [unescape_plain (Ne.symm hc), ih ht]

variable {body value : Text}

theorem Decodes.unescape_eq (h : Decodes body value) : unescape body = value := by
  induction h with
  | nil => rfl
  | plain hb _ _ ih => rw [unescape_plain hb, ih]
  | escaped _ ih => rw [unescape, ih]

theorem Runs.unescape_eq (h : Runs body value) : unescape body = value := by
  obtain h | ⟨start, rfl, h⟩ := h
  · exact h.unescape_eq
  · induction h with
    | nil => rfl
    | plain hb _ _ ih => rw [List.cons_append, unescape_plain hb, ih]
    | escaped _ ih => rw [List.cons_append, List.cons_append, unescape, ih]

/-- The induction goes from left to right while backslashes are counted from right to left, so it
carries a text in front whose backslashes are all paired. -/
theorem Decodes.backslashes_parity (h : Decodes body value) {before : Text}
    (hbefore : Even (backslashes before)) :
    Even (backslashes (before ++ body)) ∧
      ∀ k, body[k]? = some '"' → ¬ Even (backslashes (before ++ body.take k)) := by
  induction h generalizing before with
  | nil => exact ⟨by rwa [List.append_nil], fun k hk => by cases hk⟩
  | @plain c body value hb hq _ ih =>
    have hnext : Even (backslashes (before ++ [c])) := by
      rw [backslashes_concat_of_ne hb]
      exact Even.zero
    obtain ⟨heven, hmarks⟩ := ih hnext
    rw [List.append_assoc, List.singleton_append] at heven
    refine ⟨heven, fun k hk => ?_⟩
    cases k with
    | zero => exact absurd (Option.some.inj hk) hq
    | succ k =>
      have hodd := hmarks k hk
      rwa [List.append_assoc, List.singleton_append] at hodd
  | @escaped c body value _ ih =>
    have hone : backslashes (before ++ ['\\']) = backslashes before + 1 := by
      rw [backslashes_concat, if_pos rfl]
    have hnext : Even (backslashes (before ++ ['\\'] ++ [c])) := by
      rw [backslashes_concat, hone]
      split
      · exact hbefore.add even_two
      · exact Even.zero
    obtain ⟨heven, hmarks⟩ := ih hnext
    rw [List.append_assoc, List.append_assoc] at heven
    refine ⟨heven, fun k hk => ?_⟩
    match k with
    | 0 => exact absurd (Option.some.inj hk) (by decide)
    | 1 =>
      rw [List.take_succ_cons, List.take_zero, hone, Nat.not_even_iff_odd]
      exact hbefore.add_one
    | k + 2 =>
      have hodd := hmarks k hk
      rwa [List.append_assoc, List.append_assoc] at hodd

theorem even_backslashes_nil : Even (backslashes []) := Even.zero

/-- What a body holds are protected marks only. -/
theorem Decodes.not_bareMark (h : Decodes body value) (k : Nat) : ¬ BareMark body k := by
  intro hk
  have hodd := (h.backslashes_parity even_backslashes_nil).2 k hk.mark
  rw [List.nil_append] at hodd
  exact hodd hk.even

theorem BareMark.of_append {t more : Text} {k : Nat} (h : BareMark (t ++ more) k)
    (hk : k < t.length) : BareMark t k where
  mark := by
    have hmark := h.mark
    rwa [List.getElem?_append_left hk] at hmark
  even := by
    have heven := h.even
    rwa [List.take_append_of_le_length (Nat.le_of_lt hk)] at heven

/-- The mark behind a body is the first bare one. -/
theorem Decodes.isLeast_bareMark (h : Decodes body value) (after : Text) :
    IsLeast {k | BareMark (body ++ '"' :: after) k} body.length := by
  constructor
  · refine ⟨by simp, ?_⟩
    have heven := (h.backslashes_parity even_backslashes_nil).1
    rwa [List.take_left]
  · intro k hk
    refine Nat.le_of_not_lt fun hlt => ?_
    exact h.not_bareMark k (BareMark.of_append hk hlt)

theorem Runs.not_bareMark (h : Runs body value) (k : Nat) : ¬ BareMark body k := by
  obtain h | ⟨start, rfl, h⟩ := h
  · exact h.not_bareMark k
  · intro hk
    by_cases hlt : k < start.length
    · exact h.not_bareMark k (hk.of_append hlt)
    · have hmark := hk.mark
      rw [List.getElem?_append_right (Nat.le_of_not_lt hlt)] at hmark
      obtain ⟨_, hlast⟩ := List.getElem?_eq_some_iff.1 hmark
      simp at hlast

end Quoted

open Quoted

/-- Behind the spaces ahead the reader finds what it will read next. -/
theorem Reader.exists_spaces_of_skipSpaces {r : Reader} {rest : Text}
    (h : r.skipSpaces.rest = rest) :
    ∃ lead, OnlySpaces lead ∧ r = ⟨r.seen, lead ++ rest⟩ ∧
      r.skipSpaces.position = (r.seen ++ lead).length := by
  obtain ⟨seen, all⟩ := r
  obtain ⟨lead, rest', rfl, hl, hrest⟩ := exists_lead all
  rw [skipSpaces_append seen rest' hl hrest] at h ⊢
  obtain rfl : rest' = rest := h
  exact ⟨lead, hl, rfl, rfl⟩

/-- Where a token begins with a quotation mark, its end is the first bare mark behind this one, and
the reader goes on right after it. When no bare mark follows, the token ends with the query. The
value of the token is the text between the marks with every escape resolved, which is shorter than
the text unless there is no backslash in it. -/
theorem quoted_term_ends_at_bare_mark (r : Reader) {t : Text} (h : r.skipSpaces.rest = '"' :: t) :
    let place := r.skipSpaces.position
    ∃ body r', r.next = (.ok (some ⟨.term, unescape body, place⟩), r') ∧
      r'.source = r.source ∧
      (IsLeast {k | BareMark t k} body.length ∧ body <+: t ∧
          r'.position = place + 1 + body.length + 1 ∨
        (∀ k, ¬ BareMark t k) ∧ body = t ∧ r'.position = r.source.length) ∧
      (unescape body).length ≤ body.length ∧ (unescape body = body ↔ '\\' ∉ body) := by
  intro place
  obtain ⟨lead, hl, hr, hplace⟩ := Reader.exists_spaces_of_skipSpaces h
  have hsource := r.source_scan
  obtain ⟨body, after, ht, hd, -⟩ | ⟨hruns, -⟩ := Quoted.read_cases t
  · have hscan := Reader.scan_of_scans (.found r.seen hl (.quoted hd after))
    have hread : lead ++ ('"' :: body ++ ['"'] ++ after) = lead ++ '"' :: t := by simp [ht]
    rw [hread, ← hr, ← hplace] at hscan
    rw [hscan] at hsource
    refine ⟨body, _, ?_, hsource, Or.inl ⟨?_, ?_, ?_⟩, length_unescape_le body,
      unescape_eq_self_iff⟩
    · rw [Reader.next_of_scan_some hscan, hd.unescape_eq]
    · rw [ht]
      exact hd.isLeast_bareMark after
    · exact ⟨'"' :: after, ht.symm⟩
    · simp only [Reader.position, place, hplace, List.length_append, List.length_cons,
        List.length_nil]
      omega
  · have hscan := Reader.scan_of_scans (.found r.seen hl (.unclosed hruns))
    rw [List.append_nil, ← hr, ← hplace] at hscan
    rw [hscan] at hsource
    refine ⟨t, _, ?_, hsource, Or.inr ⟨hruns.not_bareMark, rfl, ?_⟩, length_unescape_le t,
      unescape_eq_self_iff⟩
    · rw [Reader.next_of_scan_some hscan, hruns.unescape_eq]
    · rw [← hsource, Reader.source, List.append_nil]
      rfl

/-- Three backslashes protect the first mark. Two do not protect the second one, though there is
another mark behind it. -/
theorem quoted_term_ends_at_bare_mark_escaped :
    let t : Text := "\\\\\\\"\\\\\" \"".toList
    let r : Reader := ⟨['a'], ' ' :: ' ' :: '"' :: t⟩
    r.skipSpaces.rest = '"' :: t ∧ IsLeast {k | BareMark t k} 6 ∧
      ∃ r', r.next = (.ok (some ⟨.term, "\\\"\\".toList, 3⟩), r') ∧ r'.position = 11 := by
  intro t r
  have h : r.skipSpaces.rest = '"' :: t := by decide
  have hmark : IsLeast {k | BareMark t k} 6 :=
    (Decodes.escaped (.escaped (.escaped .nil))).isLeast_bareMark [' ', '"']
  obtain ⟨body, r', hnext, -, ⟨hfirst, hprefix, hend⟩ | ⟨hnone, -⟩, -⟩ :=
    quoted_term_ends_at_bare_mark r h
  · have hlength : body.length = 6 := hfirst.unique hmark
    have hbody : body = t.take 6 := by
      rw [← hlength]
      exact List.prefix_iff_eq_take.1 hprefix
    rw [hbody] at hnext hend
    exact ⟨h, hmark, r', hnext, hend⟩
  · exact absurd hmark.1 (hnone 6)

end FuzzyQuery
