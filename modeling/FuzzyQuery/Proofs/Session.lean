import FuzzyQuery.Proofs.Grammar.Query
import FuzzyQuery.Proofs.Stream.Suffix
import FuzzyQuery.Session.Request

/-!
# Sessions and their past

A session parses the part of its query that the stream has not used, and it does so as a new session
would that is given nothing else. What was asked before decides where this part begins. It has no
other effect: the style that was settled is forgotten, and an error that stopped an earlier query
leaves nothing behind but the token that it blames.
-/

namespace FuzzyQuery

open Parse

theorem Fault.message_onTokens {f : Token → Token} (hf : KeepsContent f) (fault : Fault) :
    (fault.onTokens f).message = fault.message := by
  cases fault with
  | unexpectedToken found =>
    cases found with
    | none => rw [onTokens, Option.map_none]
    | some t =>
      unfold onTokens message
      dsimp only [Option.map_some]
      rw [hf.kind, hf.value]
  | unexpectedCharacter | expectedPunctuation | mixedStyle | other => rfl

def QueryError.behind (before : Text) (e : QueryError) : QueryError where
  fault := e.fault.onTokens (Token.moved before.length)
  position := e.position + before.length
  excerpt := e.excerpt.map fun x => ⟨before ++ x.source, x.position + before.length⟩

namespace Reader

theorem fail_behind (before : Text) (r : Reader) (fault : Fault) :
    (r.behind before).fail (fault.onTokens (Token.moved before.length)) =
      (r.fail fault).behind before := by
  rw [fail, source_behind, position_behind]
  rfl

theorem unexpected_behind (before : Text) (r : Reader) :
    (r.behind before).unexpected = r.unexpected.behind before :=
  fail_behind before r (.unexpectedCharacter r.peek.toList)

theorem checkEnd_behind (before : Text) (r : Reader) :
    (r.behind before).checkEnd = r.checkEnd.mapError (QueryError.behind before) := by
  have hend : (r.behind before).atEnd = r.atEnd := rfl
  rw [checkEnd, checkEnd, hend, unexpected_behind]
  split <;> rfl

end Reader

namespace Session

/-- The outcome is the same tree, or the same error in its place, when more text stands before the
query. -/
theorem outcome_behind (before : Text) (stop : Reader) (step : Step) :
    outcome (stop.behind before) (step.onTokens (Token.moved before.length)) =
      (outcome stop step).mapError (QueryError.behind before) := by
  cases step with
  | read tree style rest =>
    rw [Step.onTokens, outcome, outcome, Reader.checkEnd_behind]
    cases stop.checkEnd <;> rfl
  | stopped fault style rest =>
    rw [Step.onTokens, outcome, outcome]
    refine congrArg Except.error ?_
    cases rest with
    | nil =>
      have hend : (stop.behind before).atEnd = stop.atEnd := rfl
      rw [List.map_nil, blame, blame, hend, Reader.fail_behind, Reader.unexpected_behind,
        apply_ite (QueryError.behind before)]
    | cons t rest =>
      rw [List.map_cons, blame, blame, Reader.source_behind]
      rfl

/-- Every error of a query shows the query and marks the position that it blames. -/
theorem excerpt_of_outcome {stop : Reader} {step : Step} {e : QueryError}
    (h : outcome stop step = .error e) : e.excerpt = some ⟨stop.source, e.position⟩ := by
  cases step with
  | read tree style rest =>
    rw [outcome, Reader.checkEnd] at h
    split at h
    · cases h
    · cases h; rfl
  | stopped fault style rest =>
    rw [outcome, blame.eq_def] at h
    cases h
    cases rest with
    | nil => dsimp only; split <;> rfl
    | cons => rfl

/-- What is parsed is the unused part of the query, as a new session would parse it. -/
theorem parse_of_orderly {s : Session} (h : s.stream.Orderly) :
    let fresh := (ofText (s.stream.source.drop s.stream.offset)).parse
    s.parse.1 = fresh.1.mapError (.behind (s.stream.source.take s.stream.offset)) ∧
      s.parse.2.style = fresh.2.style := by
  intro fresh
  have hlength := List.length_take_of_le h.upcoming_eq.1
  have houtcome : s.parse.1 = outcome s.stream.upcoming.2 (Parse.query s.stream.upcoming.1) := rfl
  have hstyle : s.parse.2.style = (Parse.query s.stream.upcoming.1).style := rfl
  -- The tokens to come are those of the new session, moved, and the parser ignores their places.
  rw [houtcome, hstyle, h.upcoming_eq_fresh, query_map (keepsContent_moved _)]
  refine ⟨?_, Step.style_onTokens _⟩
  have hbehind := outcome_behind (s.stream.source.take s.stream.offset)
  rw [hlength] at hbehind
  exact hbehind _ _

/-- The requests that move the reader by whole tokens only. -/
def Request.WholeTokens : Request → Prop
  | .consume | .readWhile _ => False
  | .peek | .next | .atEnd | .drain | .parse | .expect _ => True

theorem parse_leadsTo (s : Session) : s.stream.LeadsTo s.parse.2.stream :=
  .trans (.advance _ s.stream) (.peek _)

/-- A token of the given kind is taken as it is without the kind being asked for. In every other
case there is an error, and no more has been done than to look ahead. -/
theorem expect_cases (kind : TokenKind) (s : Session) :
    (∃ t, t.kind = kind ∧ s.stream.next.1 = .ok (some t) ∧
        s.expect kind = (.ok t, { s with stream := s.stream.next.2 })) ∨
      ∃ e, s.expect kind = (.error e, { s with stream := s.stream.peek.2 }) := by
  obtain ⟨hanswer, hnext⟩ := s.stream.next_peek
  rcases hpeek : s.stream.peek with ⟨_ | _ | t, stream⟩ <;> rw [hpeek] at hanswer hnext
  · exact Or.inr ⟨_, by rw [expect, hpeek]⟩
  · exact Or.inr ⟨_, by rw [expect, hpeek]⟩
  · by_cases hkind : t.kind = kind
    · refine Or.inl ⟨t, hkind, hanswer.symm, ?_⟩
      rw [expect, hpeek, ← hnext]
      exact if_pos hkind
    · refine Or.inr ⟨missing kind stream.source t.pos, ?_⟩
      rw [expect, hpeek]
      exact if_neg hkind

theorem expect_leadsTo (kind : TokenKind) (s : Session) :
    s.stream.LeadsTo (s.expect kind).2.stream := by
  obtain ⟨t, -, -, h⟩ | ⟨e, h⟩ := s.expect_cases kind
  · rw [h]
    exact .next s.stream
  · rw [h]
    exact .peek s.stream

theorem ask_leadsTo (s : Session) {r : Request} (h : r.WholeTokens) :
    s.stream.LeadsTo (s.ask r).2.stream := by
  cases r with
  | peek => exact .peek s.stream
  | next => exact .next s.stream
  | atEnd => exact .peek s.stream
  | drain => exact .drain s.stream
  | parse => exact s.parse_leadsTo
  | expect kind => exact s.expect_leadsTo kind
  | consume | readWhile => exact h.elim

theorem askAll_leadsTo (s : Session) {requests : List Request}
    (h : ∀ r ∈ requests, r.WholeTokens) : s.stream.LeadsTo (s.askAll requests).2.stream := by
  induction requests generalizing s with
  | nil => exact .refl s.stream
  | cons r requests ih =>
    obtain ⟨hr, hrequests⟩ := List.forall_mem_cons.1 h
    exact (s.ask_leadsTo hr).trans (ih (s.ask r).2 hrequests)

end Session

/-- After any requests that take whole tokens, failed ones among them, a session parses the rest of
the query as a new session does that is given this rest alone. The style is the same, and so is the
tree; an error is the same error at the same place of the query, which it shows as a whole. -/
theorem parse_after_requests (q : Text) {requests : List Session.Request}
    (h : ∀ r ∈ requests, r.WholeTokens) :
    let s := ((Session.ofText q).askAll requests).2
    let k := s.stream.offset
    let fresh := (Session.ofText (q.drop k)).parse
    s.parse.2.style = fresh.2.style ∧
    match fresh.1 with
    | .ok tree => s.parse.1 = .ok tree
    | .error e => ∃ e', s.parse.1 = .error e' ∧
        e'.fault = e.fault.onTokens (Token.moved k) ∧ e'.message = e.message ∧
        e'.position = e.position + k ∧ e'.excerpt = some ⟨q, e.position + k⟩ := by
  intro s k fresh
  have hleads : (TokenStream.ofText q).LeadsTo s.stream :=
    (Session.ofText q).askAll_leadsTo h
  have horderly : s.stream.Orderly := hleads.orderly (TokenStream.orderly_of_held_none _)
  have hsource : s.stream.source = q := hleads.source
  have hlength := List.length_take_of_le horderly.upcoming_eq.1
  obtain ⟨houtcome, hstyle⟩ := Session.parse_of_orderly horderly
  rw [hsource] at houtcome hstyle hlength
  refine ⟨hstyle, ?_⟩
  cases hfresh : fresh.1 with
  | ok tree =>
    rw [houtcome, hfresh]
    rfl
  | error e =>
    rw [hfresh] at houtcome
    have hexcerpt := Session.excerpt_of_outcome ((Session.parse_ofText _).symm.trans hfresh)
    refine ⟨e.behind (q.take k), houtcome, ?_, Fault.message_onTokens (keepsContent_moved _) _,
      ?_, ?_⟩
    · rw [QueryError.behind, hlength]
    · rw [QueryError.behind, hlength]
    · have hdivided : q.take k ++ q.drop k = q := List.take_append_drop k q
      rw [QueryError.behind, hlength, hexcerpt, Reader.source_tokens, Option.map_some,
        Reader.source_ofText, hdivided]

/-- The first parse settles the implicit style and is stopped by the operator. The second one starts
at the operator and settles no style. -/
theorem parse_after_mixed_style :
    let q := "a b & c".toList
    let s := ((Session.ofText q).askAll [.parse]).2
    s.style = some .implicit ∧ s.stream.offset = 4 ∧ s.parse.2.style = none ∧
      s.parse.1 = .error (.ofSource q (.unexpectedToken (some ⟨.and, ['&'], 4⟩)) 4) := by
  intro q s
  have hoffset : s.stream.offset = 4 := by decide +kernel
  have htokens : (Reader.ofText (q.drop 4)).tokens =
      ([⟨.and, ['&'], 0⟩, ⟨.term, ['c'], 2⟩], ⟨"& c".toList, []⟩) := by decide +kernel
  have hquery : query [⟨.and, ['&'], 0⟩, ⟨.term, ['c'], 2⟩] =
      .stopped (.unexpectedToken (some ⟨.and, ['&'], 0⟩)) none
        [⟨.and, ['&'], 0⟩, ⟨.term, ['c'], 2⟩] := by decide +kernel
  have hwhole : ∀ r ∈ [Session.Request.parse], r.WholeTokens := by
    intro r hr
    rw [List.mem_singleton.1 hr]
    trivial
  have hafter := parse_after_requests q hwhole
  dsimp only at hafter
  rw [hoffset, Session.style_parse_ofText, Session.parse_ofText, htokens, hquery] at hafter
  obtain ⟨hstyle, ⟨fault, position, excerpt⟩, herror, hfault, _, hposition, hexcerpt⟩ := hafter
  refine ⟨by decide +kernel, hoffset, hstyle, ?_⟩
  cases hfault
  cases hposition
  cases hexcerpt
  exact herror

end FuzzyQuery
