import Mathlib.Data.List.Forall2
import Mathlib.Data.List.TakeWhile
import FuzzyQuery.Text.Blank
import FuzzyQuery.Text.LowerCase

/-!
# Lower case between blanks

How a capital sigma is lowered depends on the characters around it, and one character may be lowered
to two. Still, blanks around a text are left as they are and change nothing inside it, because a
blank has no case and ends every word; and the case of an ASCII letter is forgotten, because in
either case the letter is part of a word.
-/

namespace FuzzyQuery

def Ranges.Apart (s s' : Ranges) : Prop := ∀ r ∈ s, ∀ r' ∈ s', r.2 < r'.1 ∨ r'.2 < r.1

instance (s s' : Ranges) : Decidable (s.Apart s') :=
  inferInstanceAs (Decidable (∀ r ∈ s, ∀ r' ∈ s', r.2 < r'.1 ∨ r'.2 < r.1))

theorem Ranges.Apart.contains_eq_false {s s' : Ranges} {c : Char} (h : s.Apart s')
    (hc : s.contains c = true) : s'.contains c = false := by
  obtain ⟨r, hr, hlow, hhigh⟩ := (s.contains_iff c).1 hc
  rw [Bool.eq_false_iff]
  intro hc'
  obtain ⟨r', hr', hlow', hhigh'⟩ := (s'.contains_iff c).1 hc'
  have hapart := h r hr r' hr'
  omega

/-- What holds of the first 128 code points holds of every ASCII character. -/
theorem forall_ascii {P : Char → Prop} (h : ∀ n < 0x80, P (Char.ofNat n)) {c : Char}
    (hc : c.toNat < 0x80) : P c := by
  have hp := h c.toNat hc
  rwa [Char.ofNat_toNat] at hp

section

variable {c : Char}

theorem isCased_of_isBlank (h : isBlank c = true) : isCased c = false := by
  have hapart : blankRanges.Apart casedRanges := by decide +kernel
  exact hapart.contains_eq_false h

theorem isCaseIgnorable_of_isBlank (h : isBlank c = true) : isCaseIgnorable c = false := by
  have hapart : blankRanges.Apart caseIgnorableRanges := by decide +kernel
  exact hapart.contains_eq_false h

theorem not_isBlank_of_isCased (h : isCased c = true) : ¬ isBlank c = true := by
  intro hblank
  rw [isCased_of_isBlank hblank] at h
  cases h

def caseRunRanges : Ranges := lowerCaseRuns.map fun r => (r.first, r.last)

theorem lower?_eq_none {r : CaseRun} (hr : r ∈ lowerCaseRuns)
    (h : caseRunRanges.contains c = false) : r.lower? c.toNat = none := by
  refine if_neg fun hrun => ?_
  have hcontains : caseRunRanges.contains c = true :=
    (caseRunRanges.contains_iff c).2 ⟨_, List.mem_map_of_mem hr, hrun.1, hrun.2.1⟩
  rw [h] at hcontains
  cases hcontains

theorem lowerCaseOf_of_isBlank (h : isBlank c = true) : lowerCaseOf c = [c] := by
  unfold lowerCaseOf
  by_cases hascii : c.toNat < 0x80
  · have hlower : isBlank c = true → [c.toLower] = [c] :=
      forall_ascii (P := fun c => isBlank c = true → [c.toLower] = [c]) (by decide +kernel) hascii
    rw [if_pos hascii, hlower h]
  · have hdotted : c ≠ '\u0130' := by
      rintro rfl
      exact not_isBlank_of_isCased (by decide +kernel) h
    have hapart : blankRanges.Apart caseRunRanges := by decide +kernel
    have hnone : lowerCaseRuns.findSome? (·.lower? c.toNat) = none :=
      List.findSome?_eq_none_iff.2 fun r hr => lower?_eq_none hr (hapart.contains_eq_false h)
    rw [if_neg hascii, if_neg hdotted, hnone]
    rfl

def SameLetter (c d : Char) : Prop :=
  d = c ∨ c.isAlpha = true ∧ (d = c.toLower ∨ d = c.toUpper)

/-- Lower-casing does not tell the two characters apart, nor do they differ as neighbours of another
one. -/
structure LoweredAlike (c d : Char) : Prop where
  cased : isCased d = isCased c
  ignorable : isCaseIgnorable d = isCaseIgnorable c
  lowered : lowerCaseOf d = lowerCaseOf c
  sigma : d = '\u03A3' ↔ c = '\u03A3'

theorem lt_of_isAlpha (h : c.isAlpha = true) : c.toNat < 0x80 := by
  have hcase : c.isUpper = true ∨ c.isLower = true := (Bool.or_eq_true _ _).mp h
  obtain hupper | hlower := hcase
  · have hrange : c.val ≥ 'A'.val ∧ c.val ≤ 'Z'.val := of_decide_eq_true hupper
    exact Nat.lt_of_le_of_lt (UInt32.le_iff_toNat_le.1 hrange.2) (by decide)
  · have hrange : (c.val ≥ 'a'.val && c.val ≤ 'z'.val) = true := hlower
    have hle : c.val ≤ 'z'.val := of_decide_eq_true (Bool.and_eq_true_iff.1 hrange).2
    exact Nat.lt_of_le_of_lt (UInt32.le_iff_toNat_le.1 hle) (by decide)

def letterRanges : Ranges := [(0x41, 0x5A), (0x61, 0x7A)]

def LetterLoweredTo (lower c : Char) : Prop :=
  letterRanges.contains c = true ∧ isCased c = true ∧ lowerCaseOf c = [lower] ∧ c ≠ '\u03A3'

instance (lower c : Char) : Decidable (LetterLoweredTo lower c) :=
  inferInstanceAs (Decidable (letterRanges.contains c = true ∧ isCased c = true ∧
    lowerCaseOf c = [lower] ∧ c ≠ '\u03A3'))

/-- An ASCII letter has one lower-case form in either case. -/
theorem lowered_of_isAlpha (h : c.isAlpha = true) :
    LetterLoweredTo c.toLower c ∧ LetterLoweredTo c.toLower c.toLower ∧
      LetterLoweredTo c.toLower c.toUpper :=
  forall_ascii (c := c) (P := fun c => c.isAlpha = true → LetterLoweredTo c.toLower c ∧
      LetterLoweredTo c.toLower c.toLower ∧ LetterLoweredTo c.toLower c.toUpper)
    (by decide +kernel) (lt_of_isAlpha h) h

theorem SameLetter.loweredAlike {d : Char} (h : SameLetter c d) : LoweredAlike c d := by
  obtain rfl | ⟨hletter, hd⟩ := h
  · exact ⟨rfl, rfl, rfl, .rfl⟩
  · have hapart : letterRanges.Apart caseIgnorableRanges := by decide +kernel
    obtain ⟨⟨hc, hcased, hlower, hsigma⟩, hloweredLower, hloweredUpper⟩ :=
      lowered_of_isAlpha hletter
    have hlowered : LetterLoweredTo c.toLower d := by
      obtain rfl | rfl := hd
      · exact hloweredLower
      · exact hloweredUpper
    obtain ⟨hd, hcased', hlower', hsigma'⟩ := hlowered
    exact ⟨hcased'.trans hcased.symm,
      (hapart.contains_eq_false hd).trans (hapart.contains_eq_false hc).symm,
      hlower'.trans hlower.symm, iff_of_false hsigma' hsigma⟩

end

namespace Text

variable {t t' blanks : Text}

theorem continuesWord_congr (h : List.Forall₂ LoweredAlike t t') :
    continuesWord t' = continuesWord t := by
  induction h with
  | nil => rfl
  | @cons c d t t' hcd _ ih =>
    unfold continuesWord at ih ⊢
    by_cases hc : isCaseIgnorable c = true
    · rw [List.dropWhile_cons_of_pos hc, List.dropWhile_cons_of_pos (hcd.ignorable.trans hc), ih]
    · have hd : ¬ isCaseIgnorable d = true := by rwa [hcd.ignorable]
      rw [List.dropWhile_cons_of_neg hc, List.dropWhile_cons_of_neg hd]
      exact hcd.cased

theorem lowerCaseAfter_congr (h : List.Forall₂ LoweredAlike t t') (inWord : Bool) :
    lowerCaseAfter inWord t' = lowerCaseAfter inWord t := by
  induction h generalizing inWord with
  | nil => rfl
  | @cons c d t t' hcd htail ih =>
    simp only [lowerCaseAfter, hcd.sigma, continuesWord_congr htail, hcd.lowered, hcd.ignorable,
      hcd.cased, ih]

/-- A blank ends every word. -/
theorem continuesWord_append (h : ∀ c ∈ blanks, isBlank c = true) (t : Text) :
    continuesWord (t ++ blanks) = continuesWord t := by
  unfold continuesWord
  rw [List.dropWhile_append]
  cases hrest : t.dropWhile isCaseIgnorable with
  | cons c rest => rfl
  | nil =>
    cases blanks with
    | nil => rfl
    | cons c blanks =>
      have hc := h c List.mem_cons_self
      have hstays : ¬ isCaseIgnorable c = true := by simp [isCaseIgnorable_of_isBlank hc]
      simp [List.dropWhile_cons_of_neg hstays, isCased_of_isBlank hc]

theorem ne_sigma_of_isBlank {c : Char} (h : isBlank c = true) : c ≠ '\u03A3' := by
  rintro rfl
  exact not_isBlank_of_isCased (by decide +kernel) h

theorem lowerCaseAfter_cons_blank {c : Char} (h : isBlank c = true) (inWord : Bool) (t : Text) :
    lowerCaseAfter inWord (c :: t) = c :: lowerCaseAfter false t := by
  rw [lowerCaseAfter, if_neg (ne_sigma_of_isBlank h), lowerCaseOf_of_isBlank h,
    isCaseIgnorable_of_isBlank h, isCased_of_isBlank h]
  rfl

theorem lowerCaseAfter_blanks (h : ∀ c ∈ blanks, isBlank c = true) (inWord : Bool) :
    lowerCaseAfter inWord blanks = blanks := by
  induction blanks generalizing inWord with
  | nil => rfl
  | cons c blanks ih =>
    obtain ⟨hc, hblanks⟩ := List.forall_mem_cons.1 h
    rw [lowerCaseAfter_cons_blank hc, ih hblanks]

theorem lowerCaseAfter_append (h : ∀ c ∈ blanks, isBlank c = true) (inWord : Bool) (t : Text) :
    lowerCaseAfter inWord (t ++ blanks) = lowerCaseAfter inWord t ++ blanks := by
  induction t generalizing inWord with
  | nil => exact lowerCaseAfter_blanks h inWord
  | cons c t ih =>
    rw [List.cons_append, lowerCaseAfter, lowerCaseAfter, continuesWord_append h, ih,
      List.append_assoc]

/-- Blanks around a text stay around its lower-case form. -/
theorem lowerCase_padded {before behind : Text} (hbefore : ∀ c ∈ before, isBlank c = true)
    (hbehind : ∀ c ∈ behind, isBlank c = true) (t : Text) :
    lowerCase (before ++ t ++ behind) = before ++ lowerCase t ++ behind := by
  unfold lowerCase
  rw [lowerCaseAfter_append hbehind]
  induction before with
  | nil => rfl
  | cons c before ih =>
    obtain ⟨hc, hmore⟩ := List.forall_mem_cons.1 hbefore
    rw [List.cons_append, lowerCaseAfter_cons_blank hc, List.cons_append, ih hmore]
    rfl

theorem lowerCase_congr (h : List.Forall₂ SameLetter t t') : lowerCase t' = lowerCase t :=
  lowerCaseAfter_congr (h.imp fun _ _ => SameLetter.loweredAlike) false

theorem strip_padded {before behind : Text} (hbefore : ∀ c ∈ before, isBlank c = true)
    (hbehind : ∀ c ∈ behind, isBlank c = true) (t : Text) :
    strip (before ++ t ++ behind) = strip t := by
  unfold strip
  rw [List.append_assoc, List.dropWhile_append_of_pos hbefore, List.dropWhile_append]
  cases hrest : t.dropWhile isBlank with
  | nil => simp [List.dropWhile_eq_nil_iff.2 hbehind]
  | cons c rest =>
    have hreverse : ∀ c ∈ behind.reverse, isBlank c = true := by simpa using hbehind
    simp only [List.isEmpty_cons, Bool.false_eq_true, if_false, List.reverse_append,
      List.dropWhile_append_of_pos hreverse]

end Text

end FuzzyQuery
