import FuzzyQuery.Proofs.Automaton.Completion
import FuzzyQuery.Proofs.Session
import FuzzyQuery.Proofs.Stream.Iterator

/-!
# What an error leaves in the stream

A parse that is refused has taken the tokens before the one that it blames, and of this one it has
only seen that it comes next. The stream still hands it out, or it is at the end of the query, or it
stays at the character that starts no token. Not every fault that can be told comes out of a parse,
and where a fault is found is settled by what it says.
-/

namespace FuzzyQuery

open Parse Automaton

theorem TokenStream.upcoming_advance (n : Nat) (s : TokenStream) :
    (s.advance n).upcoming = (s.upcoming.1.drop n, s.upcoming.2) := by
  induction n generalizing s with
  | zero => rfl
  | succ n ih => rw [advance, ih, s.next_eq_front.2, List.drop_tail]

/-- A parse takes tokens from the front. -/
theorem Parse.rest_query_suffix (tokens : List Token) : (Parse.query tokens).rest <:+ tokens := by
  have hends := ends_judge .start tokens
  rw [judge_eq_ofStep] at hends
  cases hquery : Parse.query tokens with
  | read tree style rest =>
    obtain ⟨rfl, -⟩ := query_eq_read_iff.1 hquery
    exact List.nil_suffix
  | stopped fault style rest =>
    rw [hquery] at hends
    cases hends with
    | early => exact List.nil_suffix
    | refused => exact List.suffix_append _ _

namespace Session

/-- The tokens that a parse has not taken are still to come. -/
theorem upcoming_parse (s : Session) :
    s.parse.2.stream.upcoming =
      ((Parse.query s.stream.upcoming.1).rest, s.stream.upcoming.2) := by
  let taken := s.stream.upcoming.1.length - (Parse.query s.stream.upcoming.1).rest.length
  have hpeek : s.parse.2.stream.upcoming = (s.stream.advance taken).upcoming :=
    (s.stream.advance taken).peek_eq_front.2
  have hrest := List.suffix_iff_eq_drop.1 (rest_query_suffix s.stream.upcoming.1)
  rw [hpeek, TokenStream.upcoming_advance, ← hrest]

/-- When a parse has taken every token, the reader has been moved to the place where they end. -/
theorem stream_parse_of_rest_nil {s : Session}
    (h : (Parse.query s.stream.upcoming.1).rest = []) :
    s.parse.2.stream = ⟨s.stream.upcoming.2, none⟩ := by
  let taken := s.stream.upcoming.1.length - (Parse.query s.stream.upcoming.1).rest.length
  have hadvance := TokenStream.upcoming_advance taken s.stream
  have hall : s.stream.upcoming.1.drop taken = [] := by
    rw [← List.suffix_iff_eq_drop.1 (rest_query_suffix s.stream.upcoming.1), h]
  rw [hall] at hadvance
  have hpeek : s.parse.2.stream = (s.stream.advance taken).peek.2 := rfl
  rw [hpeek, TokenStream.peek_of_upcoming_nil hadvance]

end Session

/-- The stream is to hand out this token of the query next, and those behind it after it. -/
structure TokenStream.Waits (q : Text) (u : Token) (s : TokenStream) : Prop where
  peek : s.peek.1 = .ok (some u)
  next : s.next.1 = .ok (some u)
  untaken : ∃ before rest, (Reader.ofText q).tokens.1 = before ++ u :: rest ∧
    s.upcoming.1 = u :: rest

/-- How the stream is left when a parse of the query has found the fault at this place. No other
fault than these is found. -/
def Fault.Leaves (q : Text) (place : Int) (s : TokenStream) : Fault → Prop
  | unexpectedCharacter found =>
    ∃ (p : Nat) (c : Char), place = p ∧ q[p]? = some c ∧ found = [c] ∧ s.reader.position = p
  | unexpectedToken (some u) =>
    u.kind ∈ [TokenKind.and, .or, .closing] ∧ place = u.pos ∧ s.Waits q u
  | unexpectedToken none => place = q.length ∧ s.peek.1 = .ok none
  | expectedPunctuation expected => expected = [')'] ∧ place = q.length ∧ s.peek.1 = .ok none
  | mixedStyle => ∃ u : Token, place = u.pos ∧ s.Waits q u
  | other _ _ => False

variable {q : Text} {s : TokenStream} {u : Token} {place : Int} {fault : Fault}

theorem TokenStream.Waits.mem (h : s.Waits q u) : u ∈ (Reader.ofText q).tokens.1 := by
  obtain ⟨before, rest, htokens, -⟩ := h.untaken
  rw [htokens]
  exact List.mem_append_right before List.mem_cons_self

theorem TokenStream.Waits.lt_length (h : s.Waits q u) : u.pos < q.length := by
  obtain ⟨hbetween, -⟩ := (Reader.ofText q).pos_tokens
  exact Nat.lt_of_lt_of_le (hbetween u h.mem).2 (stop_le_length q)

theorem Fault.Leaves.place_bounds (h : fault.Leaves q place s) :
    0 ≤ place ∧ place ≤ q.length := by
  cases fault with
  | unexpectedCharacter found =>
    obtain ⟨p, c, rfl, hc, -⟩ := h
    have hlt := (List.getElem?_eq_some_iff.1 hc).1
    omega
  | unexpectedToken found =>
    cases found with
    | none =>
      obtain ⟨rfl, -⟩ := h
      omega
    | some u =>
      obtain ⟨-, rfl, hwaits⟩ := h
      have hlt := hwaits.lt_length
      omega
  | expectedPunctuation expected =>
    obtain ⟨-, rfl, -⟩ := h
    omega
  | mixedStyle =>
    obtain ⟨u, rfl, hwaits⟩ := h
    have hlt := hwaits.lt_length
    omega
  | other => exact h.elim

/-- Of the tokens with which an operand begins none is unexpected. -/
theorem Automaton.State.kind_of_unexpected {σ : State}
    (h : σ.step u = .error (.unexpectedToken (some u))) :
    u.kind ∈ [TokenKind.and, .or, .closing] := by
  obtain ⟨needed, depth, style⟩ := σ
  cases hkind : u.kind with
  | and | or | closing => decide
  | term | not | opening =>
    have hu : u.kind.startsOperand = true := by rw [hkind]; rfl
    have htaken (style : Option Style) := exists_step_of_needed depth style hu
    cases needed with
    | true =>
      obtain ⟨σ, hσ⟩ := htaken style
      cases hσ.symm.trans h
    | false =>
      rw [step_operand depth hu] at h
      split at h
      · obtain ⟨σ, hσ⟩ := htaken (some .implicit)
        cases hσ.symm.trans h
      · cases h

theorem Reader.unexpected_eq {r : Reader} (h : r.atEnd = false) :
    ∃ c, r.source[r.position]? = some c ∧
      r.unexpected = .ofSource r.source (.unexpectedCharacter [c]) r.position := by
  obtain ⟨seen, rest⟩ := r
  cases rest with
  | nil => cases h
  | cons c t => exact ⟨c, by simp [source, position], rfl⟩

/-- A parse that has taken every token, and finds that one more is needed or allowed, ends at the
character where the tokens end. -/
theorem leaves_unexpected (hend : (Reader.ofText q).tokens.2.atEnd = false)
    (hrest : (Parse.query (Reader.ofText q).tokens.1).rest = []) :
    let e := (Reader.ofText q).tokens.2.unexpected
    e.fault.Leaves q e.position (Session.ofText q).parse.2.stream := by
  obtain ⟨c, hc, he⟩ := Reader.unexpected_eq hend
  rw [Reader.source_tokens, Reader.source_ofText] at hc he
  rw [he]
  have hstream := Session.stream_parse_of_rest_nil (s := .ofText q) hrest
  exact ⟨_, c, rfl, hc, rfl, congrArg (fun s => s.reader.position) hstream⟩

/-- A parse that has taken every token, and would need another one, ends where the query does. -/
theorem leaves_early {style : Option Style} (hend : (Reader.ofText q).tokens.2.atEnd = true)
    (hstep : Parse.query (Reader.ofText q).tokens.1 = .stopped fault style [])
    (hfault : fault = .unexpectedToken none ∨ fault = .expectedPunctuation [')']) :
    let e := (Reader.ofText q).tokens.2.fail fault
    e.fault.Leaves q e.position (Session.ofText q).parse.2.stream := by
  intro e
  have hplace : e.position = q.length := by
    have hposition := (Reader.atEnd_iff _).1 hend
    rw [Reader.source_tokens, Reader.source_ofText] at hposition
    exact congrArg Nat.cast hposition
  have hpeek : (Session.ofText q).parse.2.stream.peek.1 = .ok none := by
    have hupcoming := (Session.ofText q).upcoming_parse
    have hrest : (Parse.query (Session.ofText q).stream.upcoming.1).rest = [] :=
      congrArg Step.rest hstep
    rw [hrest] at hupcoming
    have hcheck : (Session.ofText q).stream.upcoming.2.checkEnd = .ok () := if_pos hend
    rw [TokenStream.peek_of_upcoming_nil hupcoming, hcheck]
    rfl
  obtain rfl | rfl := hfault
  · exact ⟨hplace, hpeek⟩
  · exact ⟨rfl, hplace, hpeek⟩

/-- A parse that is refused at a token leaves this token and all those behind it. -/
theorem leaves_refused {before rest : List Token} {style : Option Style} {σ : State}
    (htokens : (Reader.ofText q).tokens.1 = before ++ u :: rest)
    (hquery : Parse.query (Reader.ofText q).tokens.1 = .stopped fault style (u :: rest))
    (hstep : σ.step u = .error fault) :
    fault.Leaves q u.pos (Session.ofText q).parse.2.stream := by
  have hupcoming := (Session.ofText q).upcoming_parse
  have hrest : (Parse.query (Session.ofText q).stream.upcoming.1).rest = u :: rest :=
    congrArg Step.rest hquery
  rw [hrest] at hupcoming
  have hwaits : (Session.ofText q).parse.2.stream.Waits q u :=
    ⟨(TokenStream.peek_of_upcoming_cons hupcoming).1, (TokenStream.next_of_upcoming_cons hupcoming).1,
      before, rest, htokens, congrArg Prod.fst hupcoming⟩
  obtain rfl | rfl := State.fault_of_step hstep
  · exact ⟨State.kind_of_unexpected hstep, rfl, hwaits⟩
  · exact ⟨u, rfl, hwaits⟩

/-- A parse that fails tells what is wrong and where, and it has not gone further. It blames the
character that starts no token, and the reader stays there; or an operator or a closing parenthesis
that cannot stand where it does, or a token by which the styles are mixed, and this token comes next;
or the end of the query, where no token comes next. The query itself is shown with the error. -/
theorem error_leaves_blamed {q : Text} {e : QueryError} (h : parse q = .error e) :
    e.fault.Leaves q e.position (Session.ofText q).parse.2.stream ∧
      0 ≤ e.position ∧ e.position ≤ q.length ∧ e.excerpt = some ⟨q, e.position⟩ := by
  rw [parse, Session.parse_ofText] at h
  have hexcerpt := Session.excerpt_of_outcome h
  rw [Reader.source_tokens, Reader.source_ofText] at hexcerpt
  suffices hleaves : e.fault.Leaves q e.position (Session.ofText q).parse.2.stream from
    ⟨hleaves, hleaves.place_bounds.1, hleaves.place_bounds.2, hexcerpt⟩
  have hends := ends_judge .start (Reader.ofText q).tokens.1
  rw [judge_eq_ofStep] at hends
  cases hquery : Parse.query (Reader.ofText q).tokens.1 with
  | read tree style rest =>
    obtain ⟨rfl, -⟩ := query_eq_read_iff.1 hquery
    rw [hquery, Session.outcome, Reader.checkEnd] at h
    split at h
    · cases h
    · rename_i hend
      cases h
      exact leaves_unexpected (Bool.eq_false_iff.2 hend) (congrArg Step.rest hquery)
  | stopped fault style rest =>
    rw [hquery, Session.outcome] at h
    rw [hquery] at hends
    generalize htokens : (Reader.ofText q).tokens.1 = tokens at hends
    cases hends with
    | early leads finish =>
      rw [Session.blame] at h
      split at h
      · rename_i hend
        cases h
        exact leaves_early hend hquery (State.fault_of_finish finish)
      · rename_i hend
        cases h
        exact leaves_unexpected (Bool.eq_false_iff.2 hend) (congrArg Step.rest hquery)
    | refused leads step rest =>
      cases h
      exact leaves_refused htokens hquery step

/-- The operator is refused after an implicit one. The character behind it has not been reached. -/
theorem error_leaves_mixed_operator :
    let q := "a (!b) & #".toList
    let s := (Session.ofText q).parse.2.stream
    parse q = .error (.ofSource q .mixedStyle 7) ∧ s.peek.1 = .ok (some ⟨.and, ['&'], 7⟩) ∧
      s.next.1 = .ok (some ⟨.and, ['&'], 7⟩) := by
  intro q s
  have hparse : parse q = .error (.ofSource q .mixedStyle 7) := by decide +kernel
  have hand : ⟨.and, ['&'], 7⟩ ∈ (Reader.ofText q).tokens.1 := by decide +kernel
  obtain ⟨⟨u, hplace, hwaits⟩, -⟩ := error_leaves_blamed hparse
  obtain rfl : u = ⟨.and, ['&'], 7⟩ := eq_of_pos_eq hwaits.mem hand (Int.ofNat_inj.1 hplace.symm)
  exact ⟨hparse, hwaits.peek, hwaits.next⟩

end FuzzyQuery
