import FuzzyQuery.Proofs.Grammar.Position
import FuzzyQuery.Proofs.Stream

/-!
# Streams and the text they have not used

What a stream still has to give depends on the text from a certain place on: the place of the token
that is held, or of the reader when none is held. To read on from there is to read this part of the
text alone, with every position moved.
-/

namespace FuzzyQuery

def Token.moved (n : Nat) (t : Token) : Token := { t with pos := t.pos + n }

theorem keepsContent_moved (n : Nat) : KeepsContent (Token.moved n) := fun _ => rfl

namespace Reader

def behind (before : Text) (r : Reader) : Reader := ⟨before ++ r.seen, r.rest⟩

theorem source_behind (before : Text) (r : Reader) :
    (r.behind before).source = before ++ r.source := List.append_assoc _ _ _

theorem position_behind (before : Text) (r : Reader) :
    (r.behind before).position = r.position + before.length := by
  simp [behind, position, Nat.add_comm]

theorem scan_behind (before : Text) {r r' : Reader} {t : Option Token} (h : r.scan = (t, r')) :
    (r.behind before).scan = (t.map (Token.moved before.length), r'.behind before) := by
  refine scan_of_scans ?_
  cases scan_eq_iff.1 h with
  | @ended seen lead hl =>
    have hmoved := Scans.ended (before ++ seen) hl
    rwa [List.append_assoc] at hmoved
  | @refused seen lead c t hl hc =>
    have hmoved := Scans.refused (before ++ seen) t hl hc
    rwa [List.append_assoc] at hmoved
  | @found seen lead value lexeme after closed kind hl hw =>
    have hmoved := Scans.found (before ++ seen) hl hw
    rw [List.append_assoc before, List.append_assoc before, List.length_append,
      Nat.add_comm before.length] at hmoved
    exact hmoved

/-- The tokens behind some text are those that the text has without it, moved. -/
theorem tokens_behind (before : Text) (r : Reader) :
    (r.behind before).tokens =
      (r.tokens.1.map (Token.moved before.length), r.tokens.2.behind before) := by
  fun_induction tokens r with
  | case1 r r' h =>
    have hscan := scan_behind before h
    rw [tokens_of_none (congrArg Prod.fst hscan), hscan]
    rfl
  | case2 r t r' h _ more ih =>
    have hscan := scan_behind before h
    rw [tokens_of_some (congrArg Prod.fst hscan), hscan, ih]
    rfl

theorem source_next (r : Reader) : r.next.2.source = r.source := by
  rcases h : r.scan with ⟨_ | t, r'⟩
  · rw [next_of_scan_none h, ← r.source_scan, h]
  · rw [next_of_scan_some h, ← r.source_scan, h]

end Reader

namespace TokenStream

def offset (s : TokenStream) : Nat :=
  match s.held with
  | some t => t.pos
  | none => s.reader.position

/-- A token that is held is the one that was read last. -/
def Orderly (s : TokenStream) : Prop := ∀ t ∈ s.held, ∃ r : Reader, r.scan = (some t, s.reader)

variable {s : TokenStream}

theorem orderly_of_held_none (r : Reader) : Orderly ⟨r, none⟩ := nofun

/-- The text divides at the offset, and what is to come is read from there. -/
theorem Orderly.upcoming_eq (h : s.Orderly) :
    s.offset ≤ s.source.length ∧
      s.upcoming = (⟨s.source.take s.offset, s.source.drop s.offset⟩ : Reader).tokens := by
  obtain ⟨⟨seen, after⟩, held⟩ := s
  cases held with
  | none =>
    have htake : (seen ++ after).take seen.length = seen := List.take_left
    have hdrop : (seen ++ after).drop seen.length = after := List.drop_left
    simp only [source, offset, Reader.source, Reader.position, htake, hdrop]
    exact ⟨by simp, rfl⟩
  | some t =>
    obtain ⟨r, hscan⟩ := h t rfl
    cases Reader.scan_eq_iff.1 hscan with
    | @found seen lead value lexeme after closed kind hl hw =>
      -- The spaces before the token were skipped; it is found again without them.
      have hagain := Scans.found (seen ++ lead) onlySpaces_nil hw
      rw [List.append_nil, List.nil_append] at hagain
      have htake : (seen ++ lead ++ lexeme ++ after).take (seen ++ lead).length = seen ++ lead := by
        rw [List.append_assoc, List.take_left]
      have hdrop : (seen ++ lead ++ lexeme ++ after).drop (seen ++ lead).length =
          lexeme ++ after := by
        rw [List.append_assoc, List.drop_left]
      simp only [source, offset, Reader.source, htake, hdrop]
      refine ⟨by simp, ?_⟩
      rw [Reader.tokens_of_scans_some hagain]
      rfl

/-- What is to come is what the unused part of the text has alone, moved to its place. -/
theorem Orderly.upcoming_eq_fresh (h : s.Orderly) :
    let fresh := (Reader.ofText (s.source.drop s.offset)).tokens
    s.upcoming = (fresh.1.map (Token.moved s.offset), fresh.2.behind (s.source.take s.offset)) := by
  obtain ⟨hle, hupcoming⟩ := h.upcoming_eq
  have hbehind := (Reader.ofText (s.source.drop s.offset)).tokens_behind (s.source.take s.offset)
  rw [List.length_take_of_le hle] at hbehind
  have hreader : (Reader.ofText (s.source.drop s.offset)).behind (s.source.take s.offset) =
      ⟨s.source.take s.offset, s.source.drop s.offset⟩ := by
    simp [Reader.behind, Reader.ofText]
  rw [hreader] at hbehind
  exact hupcoming.trans hbehind

/-- The second stream is the first one later on. -/
structure LeadsTo (s s' : TokenStream) : Prop where
  source : s'.source = s.source
  orderly : s.Orderly → s'.Orderly

namespace LeadsTo

theorem refl (s : TokenStream) : s.LeadsTo s := ⟨rfl, id⟩

theorem trans {s₁ s₂ s₃ : TokenStream} (h : s₁.LeadsTo s₂) (h' : s₂.LeadsTo s₃) :
    s₁.LeadsTo s₃ :=
  ⟨h'.source.trans h.source, fun ho => h'.orderly (h.orderly ho)⟩

theorem peek (s : TokenStream) : s.LeadsTo s.peek.2 := by
  obtain ⟨r, held⟩ := s
  cases held with
  | some t => exact .refl _
  | none =>
    have hsource := r.source_next
    rcases hscan : r.scan with ⟨_ | t, r'⟩
    · have hpeek : (⟨r, none⟩ : TokenStream).peek.2 = ⟨r', none⟩ := by
        rw [TokenStream.peek, Reader.next_of_scan_none hscan]
        cases r'.checkEnd <;> rfl
      rw [hpeek]
      rw [Reader.next_of_scan_none hscan] at hsource
      exact ⟨hsource, fun _ => orderly_of_held_none r'⟩
    · have hpeek : (⟨r, none⟩ : TokenStream).peek.2 = ⟨r', some t⟩ := by
        rw [TokenStream.peek, Reader.next_of_scan_some hscan]
      rw [hpeek]
      rw [Reader.next_of_scan_some hscan] at hsource
      refine ⟨hsource, fun _ u hu => ⟨r, ?_⟩⟩
      cases hu
      exact hscan

theorem next (s : TokenStream) : s.LeadsTo s.next.2 := by
  obtain ⟨r, held⟩ := s
  cases held with
  | some t => exact ⟨rfl, fun _ => orderly_of_held_none r⟩
  | none => exact ⟨r.source_next, fun _ => orderly_of_held_none r.next.2⟩

theorem drain (s : TokenStream) : s.LeadsTo s.drain.2 :=
  ⟨s.reader.source_tokens, fun _ => orderly_of_held_none s.upcoming.2⟩

theorem advance (n : Nat) (s : TokenStream) : s.LeadsTo (s.advance n) := by
  induction n generalizing s with
  | zero => exact .refl s
  | succ n ih => exact (next s).trans (ih s.next.2)

end LeadsTo

end TokenStream

end FuzzyQuery
