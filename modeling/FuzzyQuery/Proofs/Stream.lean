import FuzzyQuery.Proofs.Lexeme
import FuzzyQuery.Token.Stream

/-!
# What a token stream does

Each operation of a stream is told by what is still to come, whether or not a token is held. Looking
ahead leaves what is to come, and taking a token leaves the tokens behind it. When no token is left,
every operation leaves the reader where it has stopped, and a character that is refused there is
refused again.
-/

namespace FuzzyQuery

namespace Reader

/-- Where no token starts, none starts at the next attempt. -/
theorem scan_of_scan_none {r r' : Reader} (h : r.scan = (none, r')) : r'.scan = (none, r') := by
  cases scan_eq_iff.1 h with
  | @ended seen lead hl =>
    have hagain := scan_of_scans (.ended (seen ++ lead) onlySpaces_nil)
    rwa [List.append_nil] at hagain
  | @refused seen lead c t hl hc =>
    have hagain := scan_of_scans (.refused (seen ++ lead) t onlySpaces_nil hc)
    rwa [List.append_nil] at hagain

theorem scan_stop (r : Reader) : r.tokens.2.scan = (none, r.tokens.2) := by
  fun_induction tokens r with
  | case1 r r' h => exact scan_of_scan_none h
  | case2 r t r' h _ more ih => exact ih

theorem next_of_scan_none {r r' : Reader} (h : r.scan = (none, r')) :
    r.next = (r'.checkEnd.map fun _ => none, r') := by
  simp only [next, h]

theorem next_of_scan_some {r r' : Reader} {t : Token} (h : r.scan = (some t, r')) :
    r.next = (.ok (some t), r') := by
  simp only [next, h]

theorem next_of_tokens_nil {r stop : Reader} (h : r.tokens = ([], stop)) :
    r.next = (stop.checkEnd.map fun _ => none, stop) := by
  cases hscan : r.scan with
  | mk found r' =>
    cases found with
    | none =>
      rw [tokens_of_none (congrArg Prod.fst hscan), hscan] at h
      cases h
      exact next_of_scan_none hscan
    | some t =>
      rw [tokens_of_some (congrArg Prod.fst hscan)] at h
      cases h

theorem next_of_tokens_cons {r stop : Reader} {t : Token} {rest : List Token}
    (h : r.tokens = (t :: rest, stop)) :
    ∃ r', r.next = (.ok (some t), r') ∧ r'.tokens = (rest, stop) := by
  cases hscan : r.scan with
  | mk found r' =>
    cases found with
    | none =>
      rw [tokens_of_none (congrArg Prod.fst hscan)] at h
      cases h
    | some u =>
      rw [tokens_of_some (congrArg Prod.fst hscan), hscan] at h
      cases h
      exact ⟨r', next_of_scan_some hscan, rfl⟩

end Reader

namespace TokenStream

variable {s : TokenStream} {t : Token} {rest : List Token} {stop : Reader}

theorem upcoming_of_held {r : Reader} :
    (⟨r, some t⟩ : TokenStream).upcoming = (t :: r.tokens.1, r.tokens.2) := rfl

theorem upcoming_of_none {r : Reader} : (⟨r, none⟩ : TokenStream).upcoming = r.tokens := rfl

/-- When a token is to come, looking ahead finds it. -/
theorem peek_of_upcoming_cons (h : s.upcoming = (t :: rest, stop)) :
    s.peek.1 = .ok (some t) ∧ s.peek.2.upcoming = (t :: rest, stop) := by
  obtain ⟨r, held⟩ := s
  cases held with
  | some u =>
    obtain rfl : u = t := (List.cons.inj (congrArg Prod.fst h)).1
    exact ⟨rfl, h⟩
  | none =>
    obtain ⟨r', hnext, htokens⟩ := Reader.next_of_tokens_cons h
    have hpeek : (⟨r, none⟩ : TokenStream).peek = (.ok (some t), ⟨r', some t⟩) := by
      simp only [peek, hnext]
    rw [hpeek]
    refine ⟨rfl, ?_⟩
    rw [upcoming_of_held, htokens]

/-- When a token is to come, it is the one that is taken. -/
theorem next_of_upcoming_cons (h : s.upcoming = (t :: rest, stop)) :
    s.next.1 = .ok (some t) ∧ s.next.2.upcoming = (rest, stop) := by
  obtain ⟨r, held⟩ := s
  cases held with
  | some u =>
    cases h
    exact ⟨rfl, rfl⟩
  | none =>
    obtain ⟨r', hnext, htokens⟩ := Reader.next_of_tokens_cons h
    have hs : (⟨r, none⟩ : TokenStream).next = (.ok (some t), ⟨r', none⟩) := by
      simp only [next, hnext]
    rw [hs]
    exact ⟨rfl, htokens⟩

theorem eq_of_upcoming_nil (h : s.upcoming = ([], stop)) :
    s.held = none ∧ s.reader.tokens = ([], stop) := by
  obtain ⟨r, held⟩ := s
  cases held with
  | some u => cases h
  | none => exact ⟨rfl, h⟩

/-- When no token is left, taking one ends at the place where the reader stops. -/
theorem next_of_upcoming_nil (h : s.upcoming = ([], stop)) :
    s.next = (stop.checkEnd.map fun _ => none, ⟨stop, none⟩) := by
  obtain ⟨hheld, htokens⟩ := eq_of_upcoming_nil h
  simp only [next, hheld, Reader.next_of_tokens_nil htokens]

/-- When no token is left, looking ahead is the same as taking. -/
theorem peek_of_upcoming_nil (h : s.upcoming = ([], stop)) :
    s.peek = (stop.checkEnd.map fun _ => none, ⟨stop, none⟩) := by
  obtain ⟨hheld, htokens⟩ := eq_of_upcoming_nil h
  simp only [peek, hheld, Reader.next_of_tokens_nil htokens]
  cases stop.checkEnd <;> rfl

/-- Nothing comes after the place where the reader stops. -/
theorem upcoming_stop (s : TokenStream) :
    (⟨s.upcoming.2, none⟩ : TokenStream).upcoming = ([], s.upcoming.2) := by
  have hstop : s.upcoming.2.scan = (none, s.upcoming.2) := s.reader.scan_stop
  rw [upcoming_of_none, Reader.tokens_of_none (congrArg Prod.fst hstop), hstop]

/-- Looking ahead is answered as taking is, and it does not change what is taken. -/
theorem next_peek (s : TokenStream) : s.peek.1 = s.next.1 ∧ s.peek.2.next = s.next := by
  rcases hs : s.upcoming with ⟨_ | ⟨t, rest⟩, stop⟩
  · have hstop := s.upcoming_stop
    rw [hs] at hstop
    rw [peek_of_upcoming_nil hs, next_of_upcoming_nil hs, next_of_upcoming_nil hstop]
    exact ⟨rfl, rfl⟩
  · obtain ⟨r, held⟩ := s
    cases held with
    | some u => exact ⟨rfl, rfl⟩
    | none =>
      obtain ⟨r', hnext, _⟩ := Reader.next_of_tokens_cons hs
      simp only [peek, next, hnext, and_self]

end TokenStream

end FuzzyQuery
