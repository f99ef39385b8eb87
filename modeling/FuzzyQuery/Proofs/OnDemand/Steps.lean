import FuzzyQuery.Proofs.OnDemand
import FuzzyQuery.Proofs.Grammar.Reading

/-!
# Readings that come to a step

The parser takes a list of all the tokens and its steps say what is left of this list. A reading from
a session comes to such a step when it returns the same tree or fails with the same fault, has the
same style settled, and has taken the tokens up to those that are left. It may have looked one token
further, and if no token starts there, it may have failed for this already. Readings that are chained
come to the steps chained in the same way.
-/

namespace FuzzyQuery

open Parse

namespace Parse

/-- What the loop over juxtaposed operands comes to, after those read `earlier` and the `last`. -/
def juxtaposed (earlier : List Tree) (last : Tree) (style : Option Style) (tokens : List Token) :
    Step :=
  if operandAhead tokens then
    if permits style .implicit then
      (operand (some .implicit) tokens).map fun tree => earlier.foldr (.op .or) (.op .or last tree)
    else .stopped .mixedStyle style tokens
  else .read (earlier.foldr (.op .or) last) style tokens

theorem Step.map_eq_bind (step : Step) (f : Tree → Tree) :
    step.map f = step.bind fun tree style rest => .read (f tree) style rest := by
  cases step <;> rfl

theorem operand_eq_juxtaposed (style : Option Style) (tokens : List Token) :
    operand style tokens = (primary style tokens).bind (juxtaposed []) :=
  operand_eq style tokens

/-- The loop goes on with the operand that follows. -/
theorem juxtaposed_of_ahead {earlier : List Tree} {last : Tree} {style : Option Style}
    {tokens : List Token} (h : operandAhead tokens = true) (hs : permits style .implicit = true) :
    juxtaposed earlier last style tokens =
      (primary (some .implicit) tokens).bind (juxtaposed (earlier ++ [last])) := by
  rw [juxtaposed, if_pos h, if_pos hs, operand_eq_juxtaposed, Step.map_eq_bind, Step.bind_assoc]
  refine congrArg _ (funext fun following => funext fun style => funext fun rest => ?_)
  rw [← Step.map_eq_bind]
  unfold juxtaposed
  split
  · split
    · cases operand (some .implicit) rest <;> simp [Step.map]
    · rfl
  · simp [Step.map]

end Parse

namespace TokenStream

variable {s : TokenStream} {t : Token} {rest : List Token}

theorem source_upcoming (s : TokenStream) : s.upcoming.2.source = s.source :=
  s.reader.source_tokens

theorem handsOut_next (h : s.upcoming.1 = t :: rest) : s.HandsOut [t] s.next.2 :=
  .one (Prod.ext (next_of_upcoming_cons (Prod.ext h rfl)).1 rfl)

end TokenStream

namespace Reading

variable {x : Reading Tree} {s s' : Session} {stream : TokenStream} {step : Step}
  {style : Option Style} {t : Token} {rest : List Token}

/-- How a reading ends that is to come to this step and has taken the tokens before this stream. If
the character ahead starts no token, it may have looked ahead already and failed. -/
inductive Ends : Step → TokenStream → Option (Except QueryError Tree × Session) → Prop
  | returned (tree : Tree) (rest : List Token) (s : Session) :
      Ends (.read tree s.style rest) s.stream (some (.ok tree, s))
  | refused {stream stream' : TokenStream} {e : QueryError} (tree : Tree) (style : Option Style)
      (rest : List Token) (h : stream.peek = (.error e, stream')) :
      Ends (.read tree style rest) stream (some (.error e, ⟨stream', style⟩))
  | stopped (fault : Fault) (style : Option Style) (rest : List Token) (stream : TokenStream) :
      Ends (.stopped fault style rest) stream
        (some (.error (Session.blame fault stream.upcoming.2 rest), ⟨stream.peek.2, style⟩))

/-- A reading that started in `s` and ended so has come to the step. -/
def Follows (s : Session) (step : Step) (ended : Option (Except QueryError Tree × Session)) :
    Prop :=
  ∃ taken stream, s.stream.HandsOut taken stream ∧ stream.upcoming.1 = step.rest ∧
    Ends step stream ended

theorem Follows.of_handsOut {taken : List Token}
    {ended : Option (Except QueryError Tree × Session)} (h : s.stream.HandsOut taken s'.stream)
    (hfollows : Follows s' step ended) : Follows s step ended := by
  obtain ⟨more, stream, hpath, hrest, hends⟩ := hfollows
  exact ⟨taken ++ more, stream, h.trans hpath, hrest, hends⟩

theorem follows_read (tree : Tree) (s : Session) :
    Follows s (.read tree s.style s.stream.upcoming.1) (some (.ok tree, s)) :=
  ⟨[], s.stream, .refl _, rfl, .returned _ _ s⟩

theorem follows_stopped (fault : Fault) (s : Session) :
    Follows s (.stopped fault s.style s.stream.upcoming.1)
      (some (.error (Session.blame fault s.stream.upcoming.2 s.stream.upcoming.1),
        ⟨s.stream.peek.2, s.style⟩)) :=
  ⟨[], s.stream, .refl _, rfl, .stopped _ _ _ _⟩

/-- Looking ahead fails only where no token is left, and every fault gives way to this failure. -/
theorem blame_of_refused {stream' : TokenStream} {e : QueryError}
    (h : stream.peek = (.error e, stream')) (fault : Fault) :
    stream.upcoming.1 = [] ∧ Session.blame fault stream.upcoming.2 [] = e := by
  rcases hs : stream.upcoming with ⟨_ | ⟨t, rest⟩, stop⟩
  · rw [TokenStream.peek_of_upcoming_nil hs, Reader.checkEnd] at h
    split at h
    · cases h
    · rename_i hend
      cases h
      exact ⟨rfl, if_neg hend⟩
  · have hpeek := (TokenStream.peek_of_upcoming_cons hs).1
    rw [h] at hpeek
    cases hpeek

/-- Where no token is left, the step takes none and settles nothing. -/
def StaysAtEnd (F : Option Style → List Token → Step) : Prop :=
  ∀ style, (F style []).rest = [] ∧ (F style []).style = style

theorem ends_of_refused {F : Option Style → List Token → Step} (hF : StaysAtEnd F)
    {stream' : TokenStream} {e : QueryError} (h : stream.peek = (.error e, stream'))
    (style : Option Style) :
    stream.upcoming.1 = (F style []).rest ∧
      Ends (F style []) stream (some (.error e, ⟨stream', style⟩)) := by
  obtain ⟨hrest, hstyle⟩ := hF style
  refine ⟨(blame_of_refused h .mixedStyle).1.trans hrest.symm, ?_⟩
  generalize F style [] = step at hrest hstyle
  cases step with
  | read tree used rest =>
    obtain rfl : used = style := hstyle
    exact .refused tree used rest h
  | stopped fault used rest =>
    obtain rfl : rest = [] := hrest
    obtain rfl : used = style := hstyle
    have hstopped := Ends.stopped fault used [] stream
    rw [(blame_of_refused h fault).2, h] at hstopped
    exact hstopped

/-- Steps that are chained are followed by readings that are chained. -/
theorem Follows.bind {f : Tree → Option Style → List Token → Step} {k : Tree → Reading Tree}
    (hx : Follows s step (x s))
    (hk : ∀ tree s', x s = some (.ok tree, s') →
      Follows s' (f tree s'.style s'.stream.upcoming.1) (k tree s'))
    (hf : ∀ tree, StaysAtEnd (f tree)) :
    Follows s (step.bind f) ((x >>= k) s) := by
  obtain ⟨taken, stream, hpath, hrest, hends⟩ := hx
  generalize hxs : x s = ended at hends
  cases hends with
  | returned tree rest s' =>
    obtain rfl : s'.stream.upcoming.1 = rest := hrest
    rw [bind_of_ok hxs]
    exact (hk tree s' hxs).of_handsOut hpath
  | refused tree style rest h =>
    obtain rfl : rest = [] := hrest.symm.trans (blame_of_refused h .mixedStyle).1
    obtain ⟨hrest', hends⟩ := ends_of_refused (hf tree) h style
    rw [bind_of_error hxs]
    exact ⟨taken, stream, hpath, hrest', hends⟩
  | stopped fault style rest =>
    rw [bind_of_error hxs]
    exact ⟨taken, stream, hpath, hrest, .stopped fault style rest stream⟩

theorem Follows.map {f : Tree → Tree} (hx : Follows s step (x s)) :
    Follows s (step.map f) ((x >>= fun tree => pure (f tree)) s) := by
  rw [Step.map_eq_bind]
  exact hx.bind (fun tree s' _ => follows_read (f tree) s') fun _ _ => ⟨rfl, rfl⟩

/-- The stream has looked ahead, and this went well. -/
def Ready (s : Session) : Prop := s.stream.peek = (.ok s.stream.upcoming.1.head?, s.stream)

theorem ready_of_peek {found : Option Token} (h : peek s = some (.ok found, s')) :
    Ready s' ∧ found = s'.stream.upcoming.1.head? := by
  have hagain := s.stream.peek_peek
  rw [ofStream_eq_ok h] at hagain
  have hfound : found = s'.stream.upcoming.1.head? := by
    rcases htokens : s'.stream.upcoming with ⟨_ | ⟨t, rest⟩, stop⟩
    · rw [TokenStream.peek_of_upcoming_nil htokens] at hagain
      have hnone := congrArg Prod.fst hagain
      cases hend : stop.checkEnd <;> rw [hend] at hnone <;> cases hnone
      rfl
    · have htoken := (TokenStream.peek_of_upcoming_cons htokens).1
      rw [hagain] at htoken
      cases htoken
      rfl
  rw [hfound] at hagain
  exact ⟨hagain, hfound⟩

/-- A reading that looks ahead first goes on from a stream that is ready, or fails where every step
does. -/
theorem follows_peek {F : Option Style → List Token → Step} {k : Option Token → Reading Tree}
    (hF : StaysAtEnd F)
    (hk : ∀ s₁, Ready s₁ → s₁.stream.unread ≤ s.stream.unread →
      Follows s₁ (F s₁.style s₁.stream.upcoming.1) (k s₁.stream.upcoming.1.head? s₁)) :
    Follows s (F s.style s.stream.upcoming.1) ((peek >>= k) s) := by
  rcases hstream : s.stream.peek with ⟨e | found, stream⟩
  · have hpeek : peek s = some (.error e, ⟨stream, s.style⟩) := ofStream_of_eq hstream
    obtain ⟨hrest, hends⟩ := ends_of_refused hF hstream s.style
    rw [bind_of_error hpeek, (blame_of_refused hstream .mixedStyle).1]
    exact ⟨[], s.stream, .refl _, hrest, hends⟩
  · have hpeek : peek s = some (.ok found, ⟨stream, s.style⟩) := ofStream_of_eq hstream
    have hpath : s.stream.HandsOut [] stream := by
      have hpeeked := TokenStream.HandsOut.peek s.stream
      rwa [hstream] at hpeeked
    obtain ⟨hready, hfound⟩ := ready_of_peek hpeek
    rw [bind_of_ok hpeek, hpath.upcoming_eq, hfound]
    exact (hk ⟨stream, s.style⟩ hready hpath.unread_le).of_handsOut hpath

theorem Ready.follows_stopped (h : Ready s) (fault : Fault) :
    Follows s (.stopped fault s.style s.stream.upcoming.1)
      (some (.error (Session.blame fault s.stream.upcoming.2 s.stream.upcoming.1), s)) := by
  have hstopped := Reading.follows_stopped fault s
  rw [h] at hstopped
  exact hstopped

theorem Ready.atEnd (h : Ready s) (hnone : s.stream.upcoming.1 = []) :
    s.stream.upcoming.2.atEnd = true ∧ s.stream.reader = s.stream.upcoming.2 := by
  have hpeek := TokenStream.peek_of_upcoming_nil (Prod.ext hnone rfl)
  unfold Ready at h
  rw [h, Reader.checkEnd] at hpeek
  split at hpeek
  · rename_i hend
    exact ⟨hend, congrArg (fun r => r.2.reader) hpeek⟩
  · cases hpeek

theorem Ready.follows_unexpected (h : Ready s) :
    Follows s (Parse.unexpected s.style s.stream.upcoming.1)
      (unexpected s.stream.upcoming.1.head? s) := by
  have hstopped := h.follows_stopped (.unexpectedToken s.stream.upcoming.1.head?)
  rw [Parse.unexpected]
  rcases htokens : s.stream.upcoming.1 with _ | ⟨t, rest⟩ <;> rw [htokens] at hstopped
  · obtain ⟨hend, hreader⟩ := h.atEnd htokens
    rw [Session.blame, if_pos hend, ← hreader] at hstopped
    exact hstopped
  · rw [Session.blame, s.stream.source_upcoming] at hstopped
    exact hstopped

theorem pin_of_permits {used : Style} (h : permits s.style used = true) (t : Token) :
    pin used t s = some (.ok (), ⟨s.stream, some used⟩) := if_pos h

theorem pin_of_refused {used : Style} (h : ¬ permits s.style used = true) (t : Token)
    (rest : List Token) :
    pin used t s =
      some (.error (Session.blame .mixedStyle s.stream.upcoming.2 (t :: rest)), s) := by
  rw [pin, if_neg h, Session.blame, s.stream.source_upcoming]

theorem next_of_cons (h : s.stream.upcoming.1 = t :: rest) :
    next s = some (.ok (some t), ⟨s.stream.next.2, s.style⟩) :=
  ofStream_of_eq (Prod.ext (TokenStream.next_of_upcoming_cons (Prod.ext h rfl)).1 rfl)

theorem expect_of_cons (h : s.stream.upcoming.1 = t :: rest) (kind : TokenKind) :
    expect kind s = some (if t.kind = kind then (.ok t, ⟨s.stream.next.2, s.style⟩) else
      (.error (Session.missing kind s.stream.source t.pos), ⟨s.stream.peek.2, s.style⟩)) := by
  obtain ⟨s', hs'⟩ : ∃ s', s.stream.peek = (.ok (some t), s') :=
    ⟨s.stream.peek.2, Prod.ext (TokenStream.peek_of_upcoming_cons (Prod.ext h rfl)).1 rfl⟩
  have hnext := s.stream.next_peek.2
  have hsource := (TokenStream.LeadsTo.peek s.stream).source
  rw [hs'] at hnext hsource
  rw [expect, Session.expect, hs', ← hsource, ← hnext]

theorem expect_closing_of_nil (h : s.stream.upcoming.1 = []) :
    expect .closing s =
      some (.error (Session.blame (.expectedPunctuation [')']) s.stream.upcoming.2 []),
        ⟨s.stream.peek.2, s.style⟩) := by
  have hpeek := TokenStream.peek_of_upcoming_nil (Prod.ext h rfl)
  rw [expect, Session.expect, hpeek, Reader.checkEnd, Session.blame]
  by_cases hend : s.stream.upcoming.2.atEnd = true
  · rw [if_pos hend, if_pos hend]
    rfl
  · rw [if_neg hend, if_neg hend]
    rfl

/-- After a token has been taken, the reading goes on with those behind it. -/
theorem follows_next {ended : Option (Except QueryError Tree × Session)}
    (h : s.stream.upcoming.1 = t :: rest) (style : Option Style)
    (hends : s.stream.next.2.upcoming.1 = rest → s.stream.next.2.unread < s.stream.unread →
      Follows ⟨s.stream.next.2, style⟩ step ended) :
    Follows s step ended := by
  have hpath := TokenStream.handsOut_next h
  have hrest := congrArg Prod.fst hpath.upcoming_eq
  rw [h] at hrest
  exact (hends (List.cons.inj hrest).2.symm hpath.unread_le).of_handsOut hpath

theorem follows_close (tree : Tree) (s : Session) :
    Follows s (close tree s.style s.stream.upcoming.1)
      ((expect .closing >>= fun _ => pure tree) s) := by
  have hstopped := follows_stopped (.expectedPunctuation TokenKind.closing.symbol) s
  rcases htokens : s.stream.upcoming.1 with _ | ⟨t, rest⟩ <;> rw [htokens] at hstopped
  · rw [bind_of_error (expect_closing_of_nil htokens)]
    exact hstopped
  · have hexpect := expect_of_cons htokens .closing
    rw [close]
    split at hexpect
    · rename_i hkind
      rw [if_pos hkind, bind_of_ok hexpect]
      refine follows_next htokens s.style fun hrest _ => ?_
      rw [← hrest]
      exact follows_read tree _
    · rename_i hkind
      rw [Session.blame, s.stream.source_upcoming] at hstopped
      rw [if_neg hkind, bind_of_error hexpect]
      exact hstopped

end Reading

end FuzzyQuery
