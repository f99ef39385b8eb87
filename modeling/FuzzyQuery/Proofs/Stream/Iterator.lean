import FuzzyQuery.Proofs.Layout
import FuzzyQuery.Proofs.Stream
import FuzzyQuery.Session.Request

/-!
# Streams as iterators

A token stream that is asked for tokens answers as an iterator over the tokens of its query would
that has no lookahead. The tokens come out in their order, looking ahead changes nothing, and once
all tokens are out every call ends the same way: at the end of the query, or with the one error for
the character that starts no token.
-/

namespace FuzzyQuery

open Session

inductive Call where
  | peek | next | atEnd | drain

namespace Call

def request : Call → Request
  | peek => .peek
  | next => .next
  | atEnd => .atEnd
  | drain => .drain

def takes : Call → Bool
  | next | drain => true
  | peek | atEnd => false

def exhausted : Call → Answer
  | peek | next => .token none
  | atEnd => .atEnd true
  | drain => .tokens []

def taken {α : Type} : List Call → List α → List α
  | c :: calls, a :: answers => if c.takes then a :: taken calls answers else taken calls answers
  | _, _ => []

end Call

/-- The tokens to come, and how they end. -/
structure Iterator where
  ahead : List Token
  ending : Except QueryError Unit

namespace Iterator

def ofText (q : Text) : Iterator := ⟨(Reader.ofText q).tokens.1, (tokenize q).map fun _ => ()⟩

def front (i : Iterator) : Except QueryError (Option Token) :=
  match i.ahead with
  | t :: _ => .ok (some t)
  | [] => i.ending.map fun _ => none

def answer (i : Iterator) : Call → Except QueryError Answer
  | .peek | .next => i.front.map .token
  | .atEnd => i.front.map fun t => .atEnd t.isNone
  | .drain => i.ending.map fun _ => .tokens i.ahead

def after (i : Iterator) : Call → Iterator
  | .peek | .atEnd => i
  | .next => { i with ahead := i.ahead.tail }
  | .drain => { i with ahead := [] }

def answers (i : Iterator) : List Call → List (Except QueryError Answer)
  | [] => []
  | c :: calls => i.answer c :: (i.after c).answers calls

def handsOut (i : Iterator) : Call → List Token
  | .peek | .atEnd => []
  | .next => i.ahead.head?.toList
  | .drain => i.ahead

end Iterator

namespace TokenStream

theorem length_upcoming_next_lt {s s' : TokenStream} {t : Token}
    (h : s.next = (.ok (some t), s')) : s'.upcoming.1.length < s.upcoming.1.length := by
  rcases hs : s.upcoming with ⟨_ | ⟨u, rest⟩, stop⟩
  · rw [next_of_upcoming_nil hs] at h
    cases hend : stop.checkEnd <;> rw [hend] at h <;> cases h
  · have hrest := (next_of_upcoming_cons hs).2
    rw [h] at hrest
    rw [hrest]
    exact Nat.lt_succ_self _

/-- Takes one token after the other: the tokens handed out, whether they end in an error, and the
stream afterwards. -/
def iterate (s : TokenStream) : List Token × Except QueryError Unit × TokenStream :=
  match h : s.next with
  | (.ok (some t), s') =>
    have : s'.upcoming.1.length < s.upcoming.1.length := length_upcoming_next_lt h
    let more := iterate s'
    (t :: more.1, more.2)
  | (.ok none, s') => ([], .ok (), s')
  | (.error e, s') => ([], .error e, s')
termination_by s.upcoming.1.length

/-- Taking one token after the other hands out all that is to come. -/
theorem iterate_of_upcoming {s : TokenStream} {tokens : List Token} {stop : Reader}
    (h : s.upcoming = (tokens, stop)) : s.iterate = (tokens, stop.checkEnd, ⟨stop, none⟩) := by
  induction tokens generalizing s with
  | nil =>
    have hnext := next_of_upcoming_nil h
    rw [iterate]
    split
    · rename_i hs
      cases hend : stop.checkEnd <;> rw [hs, hend] at hnext <;> cases hnext
    · rename_i hs
      cases hend : stop.checkEnd <;> rw [hs, hend] at hnext <;> cases hnext
      rfl
    · rename_i hs
      cases hend : stop.checkEnd <;> rw [hs, hend] at hnext <;> cases hnext
      rfl
  | cons t tokens ih =>
    obtain ⟨htoken, hrest⟩ := next_of_upcoming_cons h
    rw [iterate]
    split
    · rename_i hs
      rw [hs] at htoken hrest
      cases htoken
      rw [ih hrest]
    · rename_i hs
      rw [hs] at htoken
      cases htoken
    · rename_i hs
      rw [hs] at htoken
      cases htoken

/-- To drain a stream is to take its tokens one after the other. -/
theorem drain_eq_iterate (s : TokenStream) :
    s.drain = (s.iterate.2.1.map fun _ => s.iterate.1, s.iterate.2.2) := by
  rcases hs : s.upcoming with ⟨tokens, stop⟩
  rw [iterate_of_upcoming hs]
  simp only [drain, hs]

def iterator (s : TokenStream) : Iterator := ⟨s.upcoming.1, s.upcoming.2.checkEnd⟩

theorem peek_eq_front (s : TokenStream) :
    s.peek.1 = s.iterator.front ∧ s.peek.2.upcoming = s.upcoming := by
  unfold iterator
  rcases hs : s.upcoming with ⟨_ | ⟨t, rest⟩, stop⟩
  · have hstop := s.upcoming_stop
    rw [hs] at hstop
    rw [peek_of_upcoming_nil hs]
    exact ⟨rfl, hstop⟩
  · exact peek_of_upcoming_cons hs

theorem next_eq_front (s : TokenStream) :
    s.next.1 = s.iterator.front ∧ s.next.2.upcoming = (s.upcoming.1.tail, s.upcoming.2) := by
  unfold iterator
  rcases hs : s.upcoming with ⟨_ | ⟨t, rest⟩, stop⟩
  · have hstop := s.upcoming_stop
    rw [hs] at hstop
    rw [next_of_upcoming_nil hs]
    exact ⟨rfl, hstop⟩
  · exact next_of_upcoming_cons hs

end TokenStream

namespace Session

def serve (s : Session) (calls : List Call) : List (Except QueryError Answer) × Session :=
  s.askAll (calls.map Call.request)

/-- The tokens that a call hands out; one that takes all tokens does so one by one, also when it
fails in the end. -/
def handsOut (s : Session) : Call → List Token
  | .peek | .atEnd => []
  | .next =>
    match s.stream.next.1 with
    | .ok (some t) => [t]
    | _ => []
  | .drain => s.stream.iterate.1

def handedOut (s : Session) : List Call → List Token
  | [] => []
  | c :: calls => s.handsOut c ++ (s.ask c.request).2.handedOut calls

/-- What is to come after a call, and the answer to it, are those of the iterator. -/
theorem ask_request (s : Session) (c : Call) :
    (s.ask c.request).1 = s.stream.iterator.answer c ∧
      (s.ask c.request).2.stream.upcoming =
        ((s.stream.iterator.after c).ahead, s.stream.upcoming.2) := by
  obtain ⟨hpeek, hpeek'⟩ := s.stream.peek_eq_front
  obtain ⟨hnext, hnext'⟩ := s.stream.next_eq_front
  cases c with
  | peek => exact ⟨congrArg (Except.map Answer.token) hpeek, hpeek'⟩
  | next => exact ⟨congrArg (Except.map Answer.token) hnext, hnext'⟩
  | atEnd =>
    refine ⟨?_, hpeek'⟩
    have hanswer : (s.ask .atEnd).1 = (s.stream.peek.1.map Option.isNone).map Answer.atEnd := rfl
    rw [Call.request, hanswer, hpeek, Iterator.answer]
    cases s.stream.iterator.front <;> rfl
  | drain =>
    have hanswer : (s.ask .drain).1 =
      (s.stream.upcoming.2.checkEnd.map fun _ => s.stream.upcoming.1).map Answer.tokens := rfl
    refine ⟨?_, s.stream.upcoming_stop⟩
    rw [Call.request, hanswer, Iterator.answer, TokenStream.iterator]
    cases s.stream.upcoming.2.checkEnd <;> rfl

theorem iterator_ask_request (s : Session) (c : Call) :
    (s.ask c.request).2.stream.iterator = s.stream.iterator.after c := by
  rw [TokenStream.iterator, (s.ask_request c).2]
  cases c <;> rfl

theorem handsOut_eq (s : Session) (c : Call) : s.handsOut c = s.stream.iterator.handsOut c := by
  cases c with
  | peek | atEnd => rfl
  | next =>
    rw [handsOut, s.stream.next_eq_front.1, Iterator.handsOut, Iterator.front]
    cases s.stream.iterator.ahead with
    | nil => cases s.stream.iterator.ending <;> rfl
    | cons => rfl
  | drain => rw [handsOut, TokenStream.iterate_of_upcoming rfl]; rfl

theorem serve_cons (s : Session) (c : Call) (calls : List Call) :
    s.serve (c :: calls) = ((s.ask c.request).1 :: ((s.ask c.request).2.serve calls).1,
      ((s.ask c.request).2.serve calls).2) := rfl

/-- The answers are those of the iterator. -/
theorem answers_serve (s : Session) (calls : List Call) :
    (s.serve calls).1 = s.stream.iterator.answers calls := by
  induction calls generalizing s with
  | nil => rfl
  | cons c calls ih =>
    rw [serve_cons, Iterator.answers, ih, iterator_ask_request, (s.ask_request c).1]

/-- The tokens handed out come first, and those that are still to come after them. -/
theorem handedOut_append_upcoming (s : Session) (calls : List Call) :
    s.handedOut calls ++ (s.serve calls).2.stream.upcoming.1 = s.stream.upcoming.1 ∧
      (s.serve calls).2.stream.upcoming.2 = s.stream.upcoming.2 := by
  induction calls generalizing s with
  | nil => exact ⟨rfl, rfl⟩
  | cons c calls ih =>
    have hstep : s.stream.iterator.handsOut c ++ (s.stream.iterator.after c).ahead =
        s.stream.iterator.ahead := by
      cases c with
      | peek | atEnd => rfl
      | next => cases h : s.stream.iterator.ahead <;> simp [Iterator.handsOut, Iterator.after, h]
      | drain => simp [Iterator.handsOut, Iterator.after]
    have hafter := (s.ask_request c).2
    obtain ⟨htokens, hstop⟩ := ih (s.ask c.request).2
    rw [hafter] at htokens hstop
    refine ⟨?_, hstop⟩
    rw [serve_cons, handedOut, List.append_assoc, htokens, handsOut_eq]
    exact hstep

theorem ask_exhausted {s : Session} {stop : Reader} (h : s.stream.upcoming = ([], stop))
    (c : Call) :
    (s.ask c.request).1 = (stop.checkEnd.map fun _ => c.exhausted) ∧
      (s.ask c.request).2.stream = ⟨stop, none⟩ := by
  constructor
  · rw [(s.ask_request c).1, TokenStream.iterator, h]
    cases c <;> cases stop.checkEnd <;> rfl
  · have hpeek : s.stream.peek.2 = ⟨stop, none⟩ := by rw [TokenStream.peek_of_upcoming_nil h]
    have hnext : s.stream.next.2 = ⟨stop, none⟩ := by rw [TokenStream.next_of_upcoming_nil h]
    have hdrain : s.stream.drain.2 = ⟨s.stream.upcoming.2, none⟩ := rfl
    cases c with
    | peek | atEnd => exact hpeek
    | next => exact hnext
    | drain => rw [h] at hdrain; exact hdrain

/-- When no token is left, every further call ends in the same way, and the reader stays. -/
theorem serve_exhausted {s : Session} {stop : Reader} (h : s.stream.upcoming = ([], stop))
    (calls : List Call) :
    (s.serve calls).1 = calls.map (fun c => stop.checkEnd.map fun _ => c.exhausted) ∧
      (calls ≠ [] → (s.serve calls).2.stream.reader = stop) := by
  induction calls generalizing s with
  | nil => exact ⟨rfl, absurd rfl⟩
  | cons c calls ih =>
    obtain ⟨hanswer, hstream⟩ := ask_exhausted h c
    have hnil := s.stream.upcoming_stop
    rw [h, ← hstream] at hnil
    obtain ⟨hanswers, hreader⟩ := ih hnil
    refine ⟨?_, fun _ => ?_⟩
    · rw [serve_cons, List.map_cons, hanswers, hanswer]
    · cases calls with
      | nil => exact congrArg TokenStream.reader hstream
      | cons => exact hreader (List.cons_ne_nil _ _)

end Session

/-- Calls that only look ahead have no effect on the answers to the others. -/
theorem Iterator.taken_answers (i : Iterator) (calls : List Call) :
    Call.taken calls (i.answers calls) = i.answers (calls.filter Call.takes) := by
  induction calls generalizing i with
  | nil => rfl
  | cons c calls ih =>
    rw [answers, Call.taken, ih]
    by_cases htakes : c.takes = true
    · rw [if_pos htakes, List.filter_cons_of_pos htakes, answers]
    · have hsame : i.after c = i := by
        cases c with
        | peek | atEnd => rfl
        | next | drain => exact absurd rfl htakes
      rw [if_neg htakes, List.filter_cons_of_neg htakes, hsame]

theorem map_tokenize {α : Type} (q : Text) (a : α) :
    ((tokenize q).map fun _ => a) = (Reader.ofText q).tokens.2.checkEnd.map fun _ => a := by
  rcases h : (Reader.ofText q).tokens with ⟨tokens, stop⟩
  simp only [tokenize, h]
  cases stop.checkEnd <;> rfl

/-- The tokens of a query end at this place, which is the end of the query if it has been read
without an error, and otherwise the place of the character that the error blames. -/
def TokensEndAt (q : Text) (place : Nat) : Prop :=
  match tokenize q with
  | .ok _ => place = q.length
  | .error e => ∃ c, q[place]? = some c ∧ e = .ofSource q (.unexpectedCharacter [c]) place

theorem tokensEndAt_stop (q : Text) : TokensEndAt q (Reader.ofText q).tokens.2.position := by
  have hsource := (Reader.ofText q).source_tokens
  rcases htokens : (Reader.ofText q).tokens with ⟨tokens, seen, rest⟩
  rw [htokens] at hsource
  have hq : q = seen ++ rest := hsource.symm
  unfold TokensEndAt
  cases rest with
  | nil =>
    rw [tokenize_of_ended htokens, hq, List.append_nil]
    rfl
  | cons c t =>
    rw [tokenize_of_refused htokens]
    refine ⟨c, ?_, rfl⟩
    simp [hq, Reader.position]

/-- A token stream refines an iterator. Whatever is asked in whatever order, the answers are those
of the iterator; the tokens handed out are the first ones of the query, in order; to look ahead is
to be told what the next call takes; to drain is to take one token after the other; calls that look
ahead make no difference to the others. When all tokens are out, every further call ends alike and
leaves the reader at the place where the tokens end. -/
theorem serve_refines_iterator (q : Text) (calls : List Call) :
    let start := Session.ofText q
    let s := (start.serve calls).2
    let all := (Reader.ofText q).tokens.1
    (start.serve calls).1 = (Iterator.ofText q).answers calls ∧
    start.handedOut calls <+: all ∧
    (s.stream.peek.1 = s.stream.next.1 ∧ s.stream.peek.2.next = s.stream.next ∧
      s.stream.atEnd.1 = s.stream.next.1.map Option.isNone) ∧
    (s.stream.drain =
        (s.stream.iterate.2.1.map fun _ => s.stream.iterate.1, s.stream.iterate.2.2) ∧
      TokensEndAt q s.stream.drain.2.reader.position) ∧
    Call.taken calls (start.serve calls).1 = (start.serve (calls.filter Call.takes)).1 ∧
    (start.handedOut calls = all → ∀ more,
      (s.serve more).1 = more.map (fun c => (tokenize q).map fun _ => c.exhausted) ∧
      (more ≠ [] → TokensEndAt q (s.serve more).2.stream.reader.position)) := by
  intro start s all
  have hiterator : start.stream.iterator = Iterator.ofText q := by
    have hunit (ending : Except QueryError Unit) : (ending.map fun _ => ()) = ending := by
      cases ending <;> rfl
    rw [Iterator.ofText, map_tokenize, hunit]
    rfl
  obtain ⟨hpeek, hnext⟩ := s.stream.next_peek
  obtain ⟨hout, hstop⟩ := start.handedOut_append_upcoming calls
  have hatEnd : s.stream.atEnd.1 = s.stream.next.1.map Option.isNone :=
    congrArg (Except.map Option.isNone) hpeek
  have hdrain : s.stream.drain.2.reader = (Reader.ofText q).tokens.2 := hstop
  refine ⟨?_, ⟨_, hout⟩, ⟨hpeek, hnext, hatEnd⟩, ⟨s.stream.drain_eq_iterate, ?_⟩, ?_, ?_⟩
  · rw [Session.answers_serve, hiterator]
  · rw [hdrain]
    exact tokensEndAt_stop q
  · rw [Session.answers_serve, Session.answers_serve, Iterator.taken_answers]
  · intro hall more
    have hnil : s.stream.upcoming.1 = [] := by
      rw [hall] at hout
      exact List.append_right_eq_self.1 hout
    obtain ⟨hanswers, hreader⟩ := Session.serve_exhausted (Prod.ext hnil hstop) more
    refine ⟨?_, fun hmore => ?_⟩
    · rw [hanswers]
      simp only [map_tokenize]
      rfl
    · rw [hreader hmore]
      exact tokensEndAt_stop q

theorem serve_refused_character :
    let q := "a #".toList
    let s := ((Session.ofText q).serve [.peek, .next]).2
    let e := QueryError.ofSource q (.unexpectedCharacter ['#']) 2
    (Session.ofText q).handedOut [.peek, .next] = (Reader.ofText q).tokens.1 ∧
      (s.serve [.next, .drain, .atEnd, .peek]).1 = [.error e, .error e, .error e, .error e] ∧
      TokensEndAt q (s.serve [.next, .drain, .atEnd, .peek]).2.stream.reader.position := by
  intro q s e
  have htokens : (Reader.ofText q).tokens = ([⟨.term, ['a'], 0⟩], ⟨"a ".toList, ['#']⟩) := by
    rw [Reader.tokens_of_some (t := ⟨.term, ['a'], 0⟩) rfl, Reader.tokens_of_none rfl]
    rfl
  have hout : (Session.ofText q).handedOut [.peek, .next] = (Reader.ofText q).tokens.1 := by
    rw [htokens]
    rfl
  obtain ⟨_, _, _, _, _, hexhausted⟩ := serve_refines_iterator q [.peek, .next]
  obtain ⟨hanswers, hplace⟩ := hexhausted hout [.next, .drain, .atEnd, .peek]
  have htokenize : tokenize q = .error e := tokenize_of_refused htokens
  rw [htokenize] at hanswers
  exact ⟨hout, hanswers, hplace (List.cons_ne_nil _ _)⟩

end FuzzyQuery
