import FuzzyQuery.Proofs.Stream.Iterator

/-!
# What is still unread

To look ahead moves the reader and is no progress: the token that was read is held and has yet to be
taken. So a held token counts among what is unread, with one character in place of all those that it
was read from. Then looking ahead never leaves more unread than there was, and every token that is
taken leaves less.
-/

namespace FuzzyQuery

theorem Reader.length_rest_scan (r : Reader) :
    r.scan.2.rest.length + r.scan.1.toList.length ≤ r.rest.length := by
  have hscans := r.scans_scan
  generalize r.scan.1 = found, r.scan.2 = r' at hscans
  cases hscans with
  | ended | refused => simp
  | found seen hl hw =>
    have hlexeme := List.length_pos_iff.2 hw.ne_nil
    simp only [Option.toList_some, List.length_singleton, List.length_append]
    omega

namespace TokenStream

/-- The characters that the reader has before it, and one more for a token that is held. -/
def unread (s : TokenStream) : Nat := s.held.toList.length + s.reader.rest.length

theorem unread_ofText (q : Text) : (ofText q).unread = q.length := Nat.zero_add _

theorem unread_peek_le (s : TokenStream) : s.peek.2.unread ≤ s.unread := by
  obtain ⟨r, held⟩ := s
  cases held with
  | some t => exact Nat.le_refl _
  | none =>
    have hread := r.length_rest_scan
    rcases hscan : r.scan with ⟨_ | t, r'⟩ <;> rw [hscan] at hread
    · have hpeek : (⟨r, none⟩ : TokenStream).peek.2 = ⟨r', none⟩ := by
        rw [peek, Reader.next_of_scan_none hscan]
        cases r'.checkEnd <;> rfl
      rw [hpeek]
      simpa [unread] using hread
    · rw [peek, Reader.next_of_scan_some hscan]
      simpa [unread, Nat.add_comm] using hread

theorem unread_next {s s' : TokenStream} {found : Option Token} (h : s.next = (.ok found, s')) :
    s'.unread + found.toList.length ≤ s.unread := by
  obtain ⟨r, held⟩ := s
  cases held with
  | some t =>
    cases h
    simp [unread, Nat.add_comm]
  | none =>
    have hread := r.length_rest_scan
    rcases hscan : r.scan with ⟨_ | t, r'⟩ <;> rw [hscan] at hread
    · rw [next, Reader.next_of_scan_none hscan] at h
      cases hend : r'.checkEnd <;> rw [hend] at h <;> cases h
      simpa [unread] using hread
    · rw [next, Reader.next_of_scan_some hscan] at h
      cases h
      simpa [unread] using hread

/-- To look ahead again changes nothing. -/
theorem peek_peek (s : TokenStream) : s.peek.2.peek = s.peek := by
  rcases hs : s.upcoming with ⟨_ | ⟨t, rest⟩, stop⟩
  · have hstop := s.upcoming_stop
    rw [hs] at hstop
    rw [peek_of_upcoming_nil hs, peek_of_upcoming_nil hstop]
  · obtain ⟨r, held⟩ := s
    cases held with
    | some u => rfl
    | none =>
      obtain ⟨r', hnext, -⟩ := Reader.next_of_tokens_cons hs
      have hpeek : (⟨r, none⟩ : TokenStream).peek = (.ok (some t), ⟨r', some t⟩) := by
        simp only [peek, hnext]
      rw [hpeek]
      rfl

/-- Streams that agree when they look ahead agree later on. -/
theorem peek_advance_congr {s s' : TokenStream} (h : s.peek = s'.peek) (n : Nat) :
    (s.advance n).peek = (s'.advance n).peek := by
  cases n with
  | zero => exact h
  | succ n =>
    have hnext : s.next = s'.next := by rw [← s.next_peek.2, h, s'.next_peek.2]
    rw [advance, advance, hnext]

theorem advance_add (m n : Nat) (s : TokenStream) : s.advance (m + n) = (s.advance m).advance n := by
  induction m generalizing s with
  | zero => rw [Nat.zero_add, advance]
  | succ m ih => rw [Nat.succ_add, advance, ih, advance]

/-- One stream becomes the other by looking ahead and taking tokens, and these are the tokens taken,
in their order. -/
inductive HandsOut : TokenStream → List Token → TokenStream → Prop
  | refl (s : TokenStream) : HandsOut s [] s
  | peek (s : TokenStream) : HandsOut s [] s.peek.2
  | next {s s' : TokenStream} {found : Option Token} (h : s.next = (.ok found, s')) :
      HandsOut s found.toList s'
  | trans {s s' s'' : TokenStream} {taken more : List Token} (h : HandsOut s taken s')
      (h' : HandsOut s' more s'') : HandsOut s (taken ++ more) s''

namespace HandsOut

variable {s s' : TokenStream} {taken : List Token}

theorem one {t : Token} (h : s.next = (.ok (some t), s')) : s.HandsOut [t] s' := next h

/-- What was to come are the tokens taken, and what is still to come behind them. -/
theorem upcoming_eq (h : s.HandsOut taken s') :
    s.upcoming = (taken ++ s'.upcoming.1, s'.upcoming.2) := by
  induction h with
  | refl s => rfl
  | peek s => rw [s.peek_eq_front.2]; rfl
  | @next s s' found h =>
    rcases hs : s.upcoming with ⟨_ | ⟨t, rest⟩, stop⟩
    · have hstop := s.upcoming_stop
      have hnext := next_of_upcoming_nil hs
      rw [h] at hnext
      rw [hs] at hstop
      cases hend : stop.checkEnd <;> rw [hend] at hnext <;> cases hnext
      rw [hstop]
      rfl
    · obtain ⟨htoken, hrest⟩ := next_of_upcoming_cons hs
      rw [h] at htoken hrest
      cases htoken
      rw [hrest]
      rfl
  | trans h h' ih ih' => rw [ih, ih', List.append_assoc]

/-- Every token taken leaves at least one character less unread. -/
theorem unread_le (h : s.HandsOut taken s') : s'.unread + taken.length ≤ s.unread := by
  induction h with
  | refl s => exact Nat.le_refl _
  | peek s => exact s.unread_peek_le
  | next h => exact unread_next h
  | trans h h' ih ih' =>
    rw [List.length_append]
    omega

/-- How often one has looked ahead on the way makes no difference. -/
theorem peek_eq (h : s.HandsOut taken s') : s'.peek = (s.advance taken.length).peek := by
  induction h with
  | refl s => rfl
  | peek s => exact s.peek_peek
  | @next s s' found h =>
    cases found with
    | some t =>
      have hs' : s.advance [t].length = s' := congrArg Prod.snd h
      rw [Option.toList_some, hs']
    | none =>
      rcases hs : s.upcoming with ⟨_ | ⟨t, rest⟩, stop⟩
      · have hsame : s.peek = s.next := by rw [peek_of_upcoming_nil hs, next_of_upcoming_nil hs]
        have hs' : s.peek.2 = s' := by rw [hsame, h]
        rw [← hs', s.peek_peek]
        rfl
      · have htoken := (next_of_upcoming_cons hs).1
        rw [h] at htoken
        cases htoken
  | trans h h' ih ih' =>
    rw [ih', List.length_append, advance_add]
    exact peek_advance_congr ih _

end HandsOut

end TokenStream

end FuzzyQuery
