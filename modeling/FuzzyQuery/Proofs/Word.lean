import FuzzyQuery.Proofs.Layout
import FuzzyQuery.Tree

/-!
# Terms that need no quotes

A text is a word exactly when the query that consists of this text is one term which has the text as
its value. Nothing else can be such a query: what is written for a quoted term is longer than its
value, if only by the mark in front. So the rendering of a term goes without quotes just where the
bare text is read back as the same term.
-/

namespace FuzzyQuery

def InWords (c : Char) : Prop :=
  'A' ≤ c ∧ c ≤ 'Z' ∨ 'a' ≤ c ∧ c ≤ 'z' ∨ '0' ≤ c ∧ c ≤ '9'

theorem isWordChar_iff (c : Char) : isWordChar c = true ↔ InWords c := by
  have hranges : isWordChar c =
      (decide ('A' ≤ c ∧ c ≤ 'Z') || decide ('a' ≤ c) && decide (c ≤ 'z') ||
        decide ('0' ≤ c) && decide (c ≤ '9')) := rfl
  simp only [hranges, InWords, Bool.or_eq_true, Bool.and_eq_true, decide_eq_true_eq, or_assoc]

namespace Quoted

variable {body value : Text}

theorem Decodes.length_le (h : Decodes body value) : value.length ≤ body.length := by
  induction h with
  | nil => exact Nat.le_refl 0
  | plain _ _ _ ih => exact Nat.succ_le_succ ih
  | escaped _ ih => exact Nat.succ_le_succ (Nat.le_succ_of_le ih)

theorem Runs.length_le (h : Runs body value) : value.length ≤ body.length := by
  obtain h | ⟨start, rfl, h⟩ := h
  · exact h.length_le
  · rw [List.length_append]
    exact Nat.le_add_right_of_le h.length_le

theorem encode_ne (t : Text) : encode t ≠ t := by
  intro h
  have hle := (decodes_escape t).length_le
  have hlength := congrArg List.length h
  simp only [encode, List.length_append, List.length_cons, List.length_nil] at hlength
  omega

end Quoted

theorem renderTerm_eq_self_iff (value : Text) :
    renderTerm value = value ↔ value.isWord = true := by
  unfold renderTerm
  by_cases h : value.isWord = true
  · rw [if_pos h]
    exact iff_of_true rfl h
  · rw [if_neg h]
    exact iff_of_false (Quoted.encode_ne value) h

theorem renderTerm_eq_encode_iff (value : Text) :
    renderTerm value = Quoted.encode value ↔ ¬ value.isWord = true := by
  unfold renderTerm
  by_cases h : value.isWord = true
  · rw [if_pos h]
    exact iff_of_false (Quoted.encode_ne value).symm (not_not_intro h)
  · rw [if_neg h]
    exact iff_of_true rfl h

/-- Only a word is written with no more characters than its value has. -/
theorem Written.isWord_of_length_le {closed : Bool} {value lexeme after : Text}
    (h : Written closed .term value lexeme after) (hle : lexeme.length ≤ value.length) :
    value.isWord = true := by
  cases h with
  | symbol hc => cases hc
  | word hw => exact hw
  | quoted hd =>
    have hvalue := hd.length_le
    simp only [List.length_append, List.length_cons, List.length_nil] at hle
    omega
  | unclosed hr =>
    have hvalue := hr.length_le
    rw [List.length_cons] at hle
    omega

theorem tokenize_of_isWord {v : Text} (h : v.isWord = true) :
    tokenize v = .ok [⟨.term, v, 0⟩] := by
  have hscans : Scans ⟨[], [] ++ (v ++ [])⟩ (some ⟨.term, v, 0⟩) ⟨[] ++ [] ++ v, []⟩ :=
    .found [] onlySpaces_nil (.word h (by simp))
  have hreads := Reader.tokens_of_reads (Reader.reads_of_scans hscans)
  rw [List.append_nil] at hreads
  exact tokenize_of_ended hreads

theorem isWord_of_tokenize {v : Text} (h : tokenize v = .ok [⟨.term, v, 0⟩]) :
    v.isWord = true := by
  obtain ⟨⟨lead, pieces, hv, _, hlined⟩, htokens⟩ := tokenize_eq_ok_iff.1 h
  obtain ⟨p, rfl, hp⟩ : ∃ p, pieces = [p] ∧ p.token = ⟨.term, v, 0⟩ :=
    List.map_eq_singleton_iff.1 htokens
  have hwritten := hlined.1.written
  rw [hp] at hwritten
  refine hwritten.isWord_of_length_le ?_
  rw [hv, Piece.textOf_cons, List.length_append, List.length_append]
  omega

/-- A text is a word if and only if it is read as the one term that it spells, from its first
character on. This is so if and only if it is not empty and each of its characters alone belongs in
words, which are the letters and digits of ASCII. The rendering of a term is its bare value in this
case, and in every other case it is the value in quotes. -/
theorem word_iff_read_back (v : Text) :
    (v.isWord = true ↔ tokenize v = .ok [⟨.term, v, 0⟩]) ∧
    (v.isWord = true ↔ v ≠ [] ∧ ∀ c ∈ v, Text.isWordLetter [c] = true) ∧
    (∀ t, Text.isWordLetter t = true ↔ ∃ c, t = [c] ∧ InWords c) ∧
    ((Tree.term v).render = v ↔ tokenize v = .ok [⟨.term, v, 0⟩]) ∧
    ((Tree.term v).render = Quoted.encode v ↔ tokenize v ≠ .ok [⟨.term, v, 0⟩]) := by
  have hword : v.isWord = true ↔ tokenize v = .ok [⟨.term, v, 0⟩] :=
    ⟨tokenize_of_isWord, isWord_of_tokenize⟩
  refine ⟨hword, v.isWord_iff, fun t => ?_, ?_, ?_⟩
  · match t with
    | [] => simp [Text.isWordLetter]
    | [c] => simp [Text.isWordLetter, isWordChar_iff]
    | _ :: _ :: _ => simp [Text.isWordLetter]
  · exact (renderTerm_eq_self_iff v).trans hword
  · exact (renderTerm_eq_encode_iff v).trans (not_congr hword)

end FuzzyQuery
