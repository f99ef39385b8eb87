import FuzzyQuery.Proofs.Session
import FuzzyQuery.Proofs.Stream.Iterator

/-!
# Positions over a run

A reader moves forward only, whoever moves it. A token that is held stands before the reader, and it
still does when the reader is moved on without the stream. So each token that is handed out stands
behind all those that were handed out before, whatever was asked meanwhile and however it ended.
-/

namespace FuzzyQuery

/-- The tokens stand one behind the other, none of them before `start` and all before `stop`. -/
structure Ascending (start : Nat) (tokens : List Token) (stop : Nat) : Prop where
  le : start ≤ stop
  within : ∀ t ∈ tokens, start ≤ t.pos ∧ t.pos < stop
  increasing : tokens.Pairwise (·.pos < ·.pos)

namespace Ascending

variable {start middle stop : Nat} {tokens more : List Token} {t : Token}

theorem nil (h : start ≤ stop) : Ascending start [] stop :=
  ⟨h, fun _ ht => absurd ht List.not_mem_nil, .nil⟩

theorem singleton (hstart : start ≤ t.pos) (hstop : t.pos < stop) : Ascending start [t] stop := by
  refine ⟨Nat.le_of_lt (Nat.lt_of_le_of_lt hstart hstop), fun u hu => ?_, List.pairwise_singleton _ _⟩
  rw [List.mem_singleton.1 hu]
  exact ⟨hstart, hstop⟩

theorem append (h : Ascending start tokens middle) (h' : Ascending middle more stop) :
    Ascending start (tokens ++ more) stop := by
  refine ⟨Nat.le_trans h.le h'.le, fun t ht => ?_, List.pairwise_append.2 ⟨h.increasing,
    h'.increasing, fun t ht u hu => Nat.lt_of_lt_of_le (h.within t ht).2 (h'.within u hu).1⟩⟩
  obtain ht | ht := List.mem_append.1 ht
  · exact ⟨(h.within t ht).1, Nat.lt_of_lt_of_le (h.within t ht).2 h'.le⟩
  · exact ⟨Nat.le_trans h.le (h'.within t ht).1, (h'.within t ht).2⟩

end Ascending

def handedToken : Except QueryError (Option Token) → List Token
  | .ok found => found.toList
  | .error _ => []

namespace Reader

theorem ascending_tokens (r : Reader) :
    Ascending r.position r.tokens.1 r.tokens.2.position := by
  obtain ⟨hwithin, hincreasing, hle⟩ := r.pos_tokens
  exact ⟨hle, hwithin, hincreasing⟩

theorem positions_next (r : Reader) :
    r.position ≤ r.next.2.position ∧
      ∀ t ∈ handedToken r.next.1, r.position ≤ t.pos ∧ t.pos < r.next.2.position := by
  obtain ⟨hle, hfound⟩ := r.scans_scan.positions
  rcases hscan : r.scan with ⟨_ | t, r'⟩
  · rw [hscan] at hle
    rw [next_of_scan_none hscan]
    refine ⟨hle, fun t ht => ?_⟩
    cases hend : r'.checkEnd <;> rw [hend] at ht <;> cases ht
  · rw [hscan] at hle hfound
    rw [next_of_scan_some hscan]
    refine ⟨hle, fun u hu => ?_⟩
    obtain rfl : u = t := List.mem_singleton.1 hu
    exact hfound u rfl

end Reader

namespace TokenStream

def HeldBehind (s : TokenStream) : Prop := ∀ t ∈ s.held, t.pos < s.reader.position

/-- What the stream comes to when it hands out these tokens: it has not been moved back, and they
stand in the part of the text that has been used meanwhile. -/
structure Passes (s : TokenStream) (given : List Token) (s' : TokenStream) : Prop where
  source : s'.source = s.source
  position : s.reader.position ≤ s'.reader.position
  heldBehind : s'.HeldBehind
  ascending : Ascending s.offset given s'.offset

variable {s s' : TokenStream} {given : List Token}

theorem heldBehind_of_none (r : Reader) : HeldBehind ⟨r, none⟩ := nofun

namespace Passes

theorem refl (h : s.HeldBehind) : s.Passes [] s :=
  ⟨rfl, Nat.le_refl _, h, .nil (Nat.le_refl _)⟩

theorem trans {s₁ s₂ s₃ : TokenStream} {more : List Token} (h : s₁.Passes given s₂)
    (h' : s₂.Passes more s₃) : s₁.Passes (given ++ more) s₃ :=
  ⟨h'.source.trans h.source, Nat.le_trans h.position h'.position, h'.heldBehind,
    h.ascending.append h'.ascending⟩

/-- Tokens that are taken need not be handed out. -/
theorem unseen (h : s.Passes given s') : s.Passes [] s' :=
  { h with ascending := .nil h.ascending.le }

/-- The reader is moved on without the stream. A token that is held stays where it is. -/
theorem moved (h : s.HeldBehind) (n : Nat) : s.Passes [] { s with reader := s.reader.advance n } := by
  have hle : s.reader.position ≤ (s.reader.advance n).position := by
    rw [Reader.position_advance]
    exact Nat.le_add_right _ _
  refine ⟨Reader.source_advance n s.reader, hle, ?_, .nil ?_⟩
  · exact fun t ht => Nat.lt_of_lt_of_le (h t ht) hle
  · obtain ⟨r, held⟩ := s
    cases held with
    | none => exact hle
    | some t => exact Nat.le_refl t.pos

theorem next (h : s.HeldBehind) : s.Passes (handedToken s.next.1) s.next.2 := by
  obtain ⟨r, held⟩ := s
  cases held with
  | some t =>
    have ht : t.pos < r.position := h t rfl
    exact ⟨rfl, Nat.le_refl _, heldBehind_of_none r, .singleton (Nat.le_refl t.pos) ht⟩
  | none =>
    obtain ⟨hle, hwithin⟩ := r.positions_next
    refine ⟨r.source_next, hle, heldBehind_of_none r.next.2, hle, hwithin, ?_⟩
    have hnext : (⟨r, none⟩ : TokenStream).next.1 = r.next.1 := rfl
    rw [hnext]
    cases r.next.1 with
    | error => exact .nil
    | ok found => cases found <;> simp [handedToken]

theorem peek (h : s.HeldBehind) : s.Passes [] s.peek.2 := by
  obtain ⟨r, held⟩ := s
  cases held with
  | some t => exact refl h
  | none =>
    have hsource := r.source_next
    obtain ⟨hle, hwithin⟩ := r.positions_next
    rw [TokenStream.peek]
    rcases hnext : r.next with ⟨_ | _ | t, r'⟩ <;> rw [hnext] at hsource hle hwithin
    · exact ⟨hsource, hle, heldBehind_of_none r', .nil hle⟩
    · exact ⟨hsource, hle, heldBehind_of_none r', .nil hle⟩
    · obtain ⟨hstart, hlt⟩ := hwithin t (List.mem_singleton_self t)
      refine ⟨hsource, hle, fun u hu => ?_, .nil hstart⟩
      cases hu
      exact hlt

theorem drain (h : s.HeldBehind) : s.Passes s.iterate.1 s.drain.2 := by
  have hgiven : s.iterate.1 = s.held.toList ++ s.reader.tokens.1 :=
    congrArg Prod.fst (iterate_of_upcoming rfl)
  have htokens := s.reader.ascending_tokens
  rw [hgiven]
  refine ⟨s.reader.source_tokens, htokens.le, heldBehind_of_none _, ?_⟩
  obtain ⟨r, held⟩ := s
  cases held with
  | none => exact htokens
  | some t => exact .append (.singleton (Nat.le_refl t.pos) (h t rfl)) htokens

theorem advance (n : Nat) (h : s.HeldBehind) : s.Passes [] (s.advance n) := by
  induction n generalizing s with
  | zero => exact refl h
  | succ n ih =>
    have hnext := next h
    exact hnext.unseen.trans (ih hnext.heldBehind)

end Passes

end TokenStream

namespace Session

/-- The tokens that a request hands out. What a parse takes is not handed out, and a request for all
tokens hands out those before the character that it fails at. -/
def handsOver (s : Session) : Request → List Token
  | .next => handedToken s.stream.next.1
  | .drain => s.stream.iterate.1
  | .expect kind =>
    match (s.expect kind).1 with
    | .ok t => [t]
    | .error _ => []
  | .peek | .atEnd | .parse | .consume | .readWhile _ => []

def handedOver (s : Session) : List Request → List Token
  | [] => []
  | r :: requests => s.handsOver r ++ (s.ask r).2.handedOver requests

variable {s : Session}

theorem expect_passes (h : s.stream.HeldBehind) (kind : TokenKind) :
    s.stream.Passes (s.handsOver (.expect kind)) (s.expect kind).2.stream := by
  rw [handsOver]
  obtain ⟨t, -, hanswer, hexpect⟩ | ⟨e, hexpect⟩ := s.expect_cases kind
  · have hnext := TokenStream.Passes.next h
    rw [hanswer] at hnext
    rw [hexpect]
    exact hnext
  · rw [hexpect]
    exact .peek h

/-- Every request moves the reader forward, and the tokens that it hands out stand in the part of the
text that it has used. -/
theorem ask_passes (h : s.stream.HeldBehind) (r : Request) :
    s.stream.Passes (s.handsOver r) (s.ask r).2.stream := by
  cases r with
  | peek | atEnd => exact .peek h
  | next => exact .next h
  | drain => exact .drain h
  | parse =>
    have hadvance := TokenStream.Passes.advance
      (s.stream.upcoming.1.length - (Parse.query s.stream.upcoming.1).rest.length) h
    exact hadvance.trans (.peek hadvance.heldBehind)
  | expect kind => exact expect_passes h kind
  | consume => exact .moved h 1
  | readWhile p => exact .moved h (s.stream.reader.rest.takeWhile p).length

theorem askAll_passes (h : s.stream.HeldBehind) (requests : List Request) :
    s.stream.Passes (s.handedOver requests) (s.askAll requests).2.stream := by
  induction requests generalizing s with
  | nil => exact .refl h
  | cons r requests ih =>
    have hstep := ask_passes h r
    exact hstep.trans (ih hstep.heldBehind)

end Session

/-- Whatever is asked of a session in whatever order, the text stays as it is, the reader stays in it
and is never moved back, and a token that is held starts before the reader. The tokens handed out
over the whole run stand one behind the other. As the requests are any, this is so after each of
them, whether it failed or not. -/
theorem positions_of_requests (q : Text) (requests : List Session.Request) :
    let start := Session.ofText q
    let s := (start.askAll requests).2
    s.stream.source = q ∧ s.stream.reader.position ≤ q.length ∧
    (∀ t ∈ s.stream.held, t.pos < s.stream.reader.position ∧ t.pos < q.length) ∧
    (∀ r, s.stream.reader.position ≤ (s.ask r).2.stream.reader.position) ∧
    (start.handedOver requests).Pairwise (·.pos < ·.pos) := by
  intro start s
  have hrun := Session.askAll_passes (s := start) (TokenStream.heldBehind_of_none _) requests
  have hsource : s.stream.reader.source = q := hrun.source
  have hle : s.stream.reader.position ≤ q.length := by
    rw [← hsource]
    exact s.stream.reader.position_le
  refine ⟨hsource, hle, fun t ht => ?_, fun r => ?_, hrun.ascending.increasing⟩
  · have hlt := hrun.heldBehind t ht
    exact ⟨hlt, Nat.lt_of_lt_of_le hlt hle⟩
  · exact (Session.ask_passes hrun.heldBehind r).position

end FuzzyQuery
