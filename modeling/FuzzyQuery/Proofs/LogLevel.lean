import FuzzyQuery.LogLevel
import FuzzyQuery.Proofs.LowerCase

/-!
# The name of a log level

A setting stands for a level by its name in lower case without the blanks around it. Two settings
with the same name in this sense have the same level and the same warning, so neither the case of
ASCII letters nor blanks at the ends make a difference. There is a warning exactly when there is a
name and no level or alias is called so.
-/

namespace FuzzyQuery

namespace LogLevel

def nameOf (setting : Text) : Text := setting.lowerCase.strip

def knownNames : List Text :=
  ["debug", "info", "warning", "error", "warn", "err"].map String.toList

variable {setting name : Text} {level : LogLevel}

theorem ofName?_eq_none_iff : ofName? name = none ↔ name ∉ knownNames := by
  have hnames : named.map Prod.fst = knownNames := by decide +kernel
  rw [ofName?, List.lookup_eq_none_iff, ← hnames, List.mem_map]
  simp only [bne_iff_ne, ne_eq, not_exists, not_and]
  exact ⟨fun h e he heq => h e he heq.symm, fun h e he heq => h e he heq.symm⟩

theorem ofName?_of_mem (h : (name, level) ∈ named) : name ≠ [] ∧ ofName? name = some level := by
  have hnamed : ∀ e ∈ named, e.1 ≠ [] ∧ ofName? e.1 = some e.2 := by decide +kernel
  exact hnamed _ h

theorem choose_some (setting : Text) : choose (some setting) =
    if nameOf setting = [] then (default, none)
    else
      match ofName? (nameOf setting) with
      | some level => (level, none)
      | none => (default, some ⟨nameOf setting⟩) := rfl

theorem choose_of_ofName? (h : nameOf setting ≠ [])
    (hlevel : ofName? (nameOf setting) = some level) : choose (some setting) = (level, none) := by
  rw [choose_some, if_neg h, hlevel]

theorem choose_of_unknown (h : nameOf setting ≠ []) (hnone : ofName? (nameOf setting) = none) :
    choose (some setting) = (default, some ⟨nameOf setting⟩) := by
  rw [choose_some, if_neg h, hnone]

/-- The warning tells the name and the level that counts instead. -/
theorem message_unknown (name : Text) : UnknownLevel.message ⟨name⟩ =
    "Unknown log level '".toList ++ name ++
      "'. Valid values: debug, info, warning, error. Defaulting to warning.".toList := by
  have htail : "'. Valid values: debug, info, warning, error. Defaulting to ".toList ++
      (default.name ++ ['.']) =
        "'. Valid values: debug, info, warning, error. Defaulting to warning.".toList := by
    decide +kernel
  have hjoin (a b c d tail : Text) (h : b ++ (c ++ d) = tail) :
      a ++ name ++ b ++ c ++ d = a ++ name ++ tail := by
    simp only [← h, List.append_assoc]
  exact hjoin _ _ _ _ _ htail

/-- A warning means that there is a name and that it is unknown. -/
theorem warns_iff {warning : UnknownLevel} : (choose (some setting)).2 = some warning ↔
    nameOf setting ≠ [] ∧ ofName? (nameOf setting) = none ∧ warning = ⟨nameOf setting⟩ := by
  by_cases hname : nameOf setting = []
  · rw [choose_some, if_pos hname]
    simp [hname]
  · cases hlevel : ofName? (nameOf setting) with
    | some level =>
      rw [choose_of_ofName? hname hlevel]
      simp
    | none =>
      rw [choose_of_unknown hname hlevel]
      simp [hname, eq_comm]

theorem nameOf_padded {before behind setting' : Text} (hbefore : ∀ c ∈ before, isBlank c = true)
    (hbehind : ∀ c ∈ behind, isBlank c = true) (h : List.Forall₂ SameLetter setting setting') :
    nameOf (before ++ setting' ++ behind) = nameOf setting := by
  rw [nameOf, Text.lowerCase_padded hbefore hbehind, Text.strip_padded hbefore hbehind,
    Text.lowerCase_congr h, nameOf]

end LogLevel

open LogLevel

/-- A setting may be padded with blanks and the case of its ASCII letters changed: the level and the
warning stay what they were. There is a warning exactly when the setting in lower case, without
blanks at its ends, is neither empty nor the name or an alias of a level. It tells this name, and
the level is the default one. -/
theorem choose_ignores_padding_and_case (setting : Text) :
    let chosen := LogLevel.choose (some setting)
    let name := setting.lowerCase.strip
    (∀ before behind setting' : Text, (∀ c ∈ before, isBlank c = true) →
      (∀ c ∈ behind, isBlank c = true) → List.Forall₂ SameLetter setting setting' →
      LogLevel.choose (some (before ++ setting' ++ behind)) = chosen) ∧
    (∀ level, (name, level) ∈ LogLevel.named → chosen = (level, none)) ∧
    ((∃ warning, chosen.2 = some warning) ↔ name ≠ [] ∧ name ∉ knownNames) ∧
    ∀ warning, chosen.2 = some warning → chosen.1 = .warning ∧
      warning.message = "Unknown log level '".toList ++ name ++
        "'. Valid values: debug, info, warning, error. Defaulting to warning.".toList := by
  intro chosen name
  refine ⟨fun before behind setting' hbefore hbehind h => ?_, fun level hlevel => ?_, ?_,
    fun warning hwarning => ?_⟩
  · have hname := nameOf_padded hbefore hbehind h
    rw [choose_some, hname]
    rfl
  · obtain ⟨hne, hfound⟩ := ofName?_of_mem hlevel
    exact choose_of_ofName? hne hfound
  · constructor
    · rintro ⟨warning, hwarning⟩
      obtain ⟨hne, hnone, -⟩ := warns_iff.1 hwarning
      exact ⟨hne, ofName?_eq_none_iff.1 hnone⟩
    · rintro ⟨hne, hunknown⟩
      exact ⟨_, warns_iff.2 ⟨hne, ofName?_eq_none_iff.2 hunknown, rfl⟩⟩
  · obtain ⟨hne, hnone, rfl⟩ := warns_iff.1 hwarning
    have hchosen : chosen = _ := choose_of_unknown hne hnone
    rw [hchosen]
    exact ⟨rfl, message_unknown name⟩

/-- A capital sigma at the end of the word is lowered to a final one, although a blank that is not
ASCII follows it. -/
theorem choose_ignores_padding_and_case_sigma :
    let setting := "InFoΣ".toList
    let setting' := "iNFoΣ".toList
    let before := ['\u3000', '\t']
    let behind := ['\u0085', ' ']
    let warning : UnknownLevel := ⟨"infoς".toList⟩
    ((∀ c ∈ before, isBlank c = true) ∧ (∀ c ∈ behind, isBlank c = true) ∧
      List.Forall₂ SameLetter setting setting') ∧
    LogLevel.choose (some setting) = (.warning, some warning) ∧
    LogLevel.choose (some (before ++ setting' ++ behind)) = (.warning, some warning) := by
  intro setting setting' before behind warning
  have hbefore : ∀ c ∈ before, isBlank c = true := List.all_eq_true.1 (by decide +kernel)
  have hbehind : ∀ c ∈ behind, isBlank c = true := List.all_eq_true.1 (by decide +kernel)
  have hsame : List.Forall₂ SameLetter setting setting' :=
    .cons (.inr ⟨rfl, .inl rfl⟩) (.cons (.inr ⟨rfl, .inr rfl⟩)
      (.cons (.inl rfl) (.cons (.inl rfl) (.cons (.inl rfl) .nil))))
  have hchosen : LogLevel.choose (some setting) = (.warning, some warning) := by decide +kernel
  obtain ⟨hignores, -⟩ := choose_ignores_padding_and_case setting
  exact ⟨⟨hbefore, hbehind, hsame⟩, hchosen,
    (hignores before behind setting' hbefore hbehind hsame).trans hchosen⟩

end FuzzyQuery
