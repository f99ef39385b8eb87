import FuzzyQuery.Proofs.Automaton.Simulation
import FuzzyQuery.Proofs.Layout
import Mathlib.Data.List.Nodup

/-!
# Errors come as early as they can

From every state of the automaton some tokens lead to acceptance: an operand if one is needed, and a
parenthesis for each one that is open. So the tokens before the one that is blamed for an error can
always be completed to a query, and with this token they cannot be.
-/

namespace FuzzyQuery

open Parse

def Accepted (tokens : List Token) : Prop :=
  ∃ tree style, Parse.query tokens = .read tree style []

/-- A text is parsed exactly when it has tokens and these are accepted. -/
theorem parse_succeeds_iff {q : Text} :
    (∃ tree, parse q = .ok tree) ↔ ∃ tokens, tokenize q = .ok tokens ∧ Accepted tokens := by
  constructor
  · rintro ⟨tree, h⟩
    obtain ⟨tokens, htokens, s, hs⟩ := parse_eq_ok_iff.1 h
    exact ⟨tokens, htokens, tree, settle s tree none, query_of_derives hs⟩
  · rintro ⟨tokens, htokens, tree, style, h⟩
    obtain ⟨-, s, hs, -⟩ := query_eq_read_iff.1 h
    exact ⟨tree, parse_eq_ok_iff.2 ⟨tokens, htokens, s, hs⟩⟩

namespace Automaton

variable {σ σ' : State} {fault : Fault} {tokens : List Token} {u : Token}

inductive Leads : State → List Token → State → Prop
  | nil (σ : State) : Leads σ [] σ
  | cons {σ σ' τ : State} {t : Token} {ts : List Token} (step : σ.step t = .ok σ')
      (more : Leads σ' ts τ) : Leads σ (t :: ts) τ

theorem Leads.judge_append (h : Leads σ tokens σ') (more : List Token) :
    judge σ (tokens ++ more) = judge σ' more := by
  induction h with
  | nil => rfl
  | cons step _ ih => rw [List.cons_append, judge, step, ← ih]

/-- How a pass over tokens ends: in a state that may or may not be a final one, or at a token that
is refused. -/
inductive Ends (σ : State) : List Token → Verdict → Prop
  | accepted {tokens : List Token} {σ' : State} (leads : Leads σ tokens σ')
      (finish : σ'.finish = .ok ()) : Ends σ tokens (.accepted σ'.style)
  | early {tokens : List Token} {σ' : State} {fault : Fault} (leads : Leads σ tokens σ')
      (finish : σ'.finish = .error fault) : Ends σ tokens (.refused fault σ'.style [])
  | refused {before : List Token} {u : Token} {σ' : State} {fault : Fault}
      (leads : Leads σ before σ') (step : σ'.step u = .error fault) (rest : List Token) :
      Ends σ (before ++ u :: rest) (.refused fault σ'.style (u :: rest))

theorem Ends.cons {t : Token} {verdict : Verdict} (step : σ.step t = .ok σ')
    (h : Ends σ' tokens verdict) : Ends σ (t :: tokens) verdict := by
  cases h with
  | accepted leads finish => exact .accepted (.cons step leads) finish
  | early leads finish => exact .early (.cons step leads) finish
  | refused leads refuses rest => exact .refused (.cons step leads) refuses rest

theorem ends_judge (σ : State) (tokens : List Token) : Ends σ tokens (judge σ tokens) := by
  induction tokens generalizing σ with
  | nil =>
    rw [judge]
    cases h : σ.finish with
    | ok => exact .accepted (.nil σ) h
    | error fault => exact .early (.nil σ) h
  | cons t tokens ih =>
    rw [judge]
    cases h : σ.step t with
    | ok σ' => exact (ih σ').cons h
    | error fault => exact .refused (.nil σ) h tokens

theorem accepted_iff_judge : Accepted tokens ↔ ∃ style, judge .start tokens = .accepted style := by
  rw [judge_eq_ofStep]
  constructor
  · rintro ⟨tree, style, h⟩
    exact ⟨style, by rw [h]; rfl⟩
  · rintro ⟨style, h⟩
    cases hquery : Parse.query tokens with
    | read tree style' rest =>
      obtain ⟨rfl, -⟩ := query_eq_read_iff.1 hquery
      exact ⟨tree, style', hquery⟩
    | stopped =>
      rw [hquery] at h
      cases h

def State.completion (σ : State) : List Token :=
  (if σ.needed then [⟨.term, ['a'], 0⟩] else []) ++
    List.replicate σ.depth ⟨.closing, [')'], 0⟩

theorem judge_replicate_closing (depth : Nat) (style : Option Style) :
    judge ⟨false, depth, style⟩ (List.replicate depth ⟨.closing, [')'], 0⟩) =
      .accepted style := by
  induction depth with
  | zero => rfl
  | succ depth ih =>
    rw [List.replicate_succ, judge, State.step_closing _ _ rfl, if_pos (Nat.succ_pos depth)]
    exact ih

theorem judge_completion (σ : State) : judge σ σ.completion = .accepted σ.style := by
  obtain ⟨needed, depth, style⟩ := σ
  cases needed with
  | false => exact judge_replicate_closing depth style
  | true => exact judge_replicate_closing depth style

/-- What has been taken can be completed. -/
theorem Leads.exists_accepted (h : Leads .start tokens σ) :
    ∃ more, Accepted (tokens ++ more) := by
  refine ⟨σ.completion, accepted_iff_judge.2 ⟨σ.style, ?_⟩⟩
  rw [h.judge_append, judge_completion]

theorem Leads.not_accepted_of_step (h : Leads .start tokens σ) (step : σ.step u = .error fault)
    (more : List Token) : ¬ Accepted (tokens ++ u :: more) := by
  rw [accepted_iff_judge, h.judge_append, judge, step]
  rintro ⟨style, hstyle⟩
  cases hstyle

theorem Leads.not_accepted_of_finish (h : Leads .start tokens σ)
    (finish : σ.finish = .error fault) : ¬ Accepted tokens := by
  have hjudge := h.judge_append []
  rw [List.append_nil, judge, finish] at hjudge
  rw [accepted_iff_judge, hjudge]
  rintro ⟨style, hstyle⟩
  cases hstyle

theorem State.fault_of_begin (h : σ.begin u = .error fault) :
    fault = .unexpectedToken (some u) := by
  unfold begin at h
  cases hkind : u.kind with
  | term | not | opening =>
    rw [hkind] at h
    cases h
  | and | or | closing =>
    rw [hkind] at h
    cases h
    rfl

/-- A token is refused because it cannot stand there, or for its style. -/
theorem State.fault_of_step (h : σ.step u = .error fault) :
    fault = .unexpectedToken (some u) ∨ fault = .mixedStyle := by
  obtain ⟨needed, depth, style⟩ := σ
  cases needed with
  | true => exact Or.inl (fault_of_begin h)
  | false =>
    cases hkind : u.kind with
    | term | not | opening =>
      have hu : u.kind.startsOperand = true := by rw [hkind]; rfl
      rw [step_operand depth hu] at h
      split at h
      · exact Or.inl (fault_of_begin h)
      · cases h
        exact Or.inr rfl
    | and | or =>
      rw [step_operator depth (by rw [hkind]; rfl)] at h
      split at h
      · cases h
      · cases h
        exact Or.inr rfl
    | closing =>
      rw [step_closing depth style hkind] at h
      split at h
      · cases h
      · cases h
        exact Or.inl rfl

theorem State.fault_of_finish (h : σ.finish = .error fault) :
    fault = .unexpectedToken none ∨ fault = .expectedPunctuation [')'] := by
  unfold finish at h
  split at h
  · cases h
    exact Or.inl rfl
  · split at h
    · cases h
    · cases h
      exact Or.inr rfl

/-- A query that is refused: the automaton takes the tokens up to the place that is blamed, and
cannot go on there. -/
inductive Refusal (q : Text) : QueryError → Prop
  | token {before rest : List Token} {u : Token} {σ : State} {fault : Fault}
      (tokens_eq : (Reader.ofText q).tokens.1 = before ++ u :: rest) (leads : Leads .start before σ)
      (step : σ.step u = .error fault) : Refusal q (.ofSource q fault u.pos)
  | early {tokens : List Token} {σ : State} {fault : Fault} (tokenized : tokenize q = .ok tokens)
      (leads : Leads .start tokens σ) (finish : σ.finish = .error fault) :
      Refusal q (.ofSource q fault q.length)
  | character {start tail : Text} {c : Char} {σ : State} (query_eq : q = start ++ c :: tail)
      (stop : (Reader.ofText q).tokens.2 = ⟨start, c :: tail⟩) (starts : StartsNothing c)
      (leads : Leads .start (Reader.ofText q).tokens.1 σ) :
      Refusal q (.ofSource q (.unexpectedCharacter [c]) start.length)

theorem refusal_of_parse {q : Text} {e : QueryError} (h : parse q = .error e) : Refusal q e := by
  obtain ⟨start, tail, l, rfl, hstops, hread⟩ := exists_layout q
  have htokens : (Reader.ofText (start ++ tail)).tokens.1 = l.tokens := congrArg Prod.fst hread
  have hreport := congrArg Prod.fst (report_query ⟨start, tail⟩ l.tokens)
  have hends := ends_judge .start l.tokens
  rw [parse, Session.parse_ofText, hread] at h
  rw [h] at hreport
  -- The verdict on the tokens and the text behind the last of them settle which error it is.
  generalize judge .start l.tokens = verdict at hreport hends
  rw [← htokens] at hends
  generalize hts : (Reader.ofText (start ++ tail)).tokens.1 = tokens at hends
  cases hends with
  | @refused before u σ fault leads step rest =>
    cases hreport
    exact .token hts leads step
  | @early _ σ fault leads finish =>
    rcases hstops with rfl | ⟨-, c, t, rfl, hc⟩
    · cases hreport
      have htokenized := tokenize_of_ended hread
      rw [← htokens, hts] at htokenized
      have hearly := Refusal.early htokenized leads finish
      rwa [List.length_append, List.length_nil, Nat.add_zero] at hearly
    · cases hreport
      exact .character rfl (congrArg Prod.snd hread) hc (hts ▸ leads)
  | @accepted _ σ leads finish =>
    rcases hstops with rfl | ⟨-, c, t, rfl, hc⟩
    · cases hreport
    · cases hreport
      exact .character rfl (congrArg Prod.snd hread) hc (hts ▸ leads)

end Automaton

def tokensBefore (q : Text) (place : Int) : List Token :=
  (Reader.ofText q).tokens.1.filter fun t => (t.pos : Int) < place

namespace QueryError

structure Blames (q : Text) (e : QueryError) (u : Token) : Prop where
  mem : u ∈ (Reader.ofText q).tokens.1
  position : e.position = u.pos
  fault : e.fault = .unexpectedToken (some u) ∨ e.fault = .mixedStyle

structure BlamesEnd (q : Text) (e : QueryError) : Prop where
  position : e.position = q.length
  fault : e.fault = .unexpectedToken none ∨ e.fault = .expectedPunctuation [')']

def BlamesCharacter (q : Text) (e : QueryError) : Prop :=
  ∃ c p, e = .ofSource q (.unexpectedCharacter [c]) p ∧ q[p]? = some c ∧ StartsNothing c

end QueryError

theorem tokensBefore_eq {q : Text} {before rest : List Token} {u : Token}
    (h : (Reader.ofText q).tokens.1 = before ++ u :: rest) : tokensBefore q u.pos = before := by
  obtain ⟨-, hpairwise, -⟩ := (Reader.ofText q).pos_tokens
  rw [h, List.pairwise_append, List.pairwise_cons] at hpairwise
  obtain ⟨-, ⟨hrest, -⟩, hbefore⟩ := hpairwise
  have hkept : before.filter (fun t => (t.pos : Int) < u.pos) = before := by
    rw [List.filter_eq_self]
    intro t ht
    have hlt := hbefore t ht u List.mem_cons_self
    simpa using hlt
  have hdropped : (u :: rest).filter (fun t => (t.pos : Int) < u.pos) = [] := by
    rw [List.filter_eq_nil_iff]
    rintro t ht
    obtain rfl | ht := List.mem_cons.1 ht
    · simp
    · have hlt := hrest t ht
      simp only [decide_eq_true_eq, Int.ofNat_lt]
      omega
  rw [tokensBefore, h, List.filter_append, hkept, hdropped, List.append_nil]

/-- At the place where reading stops, and behind it, all the tokens have been passed. -/
theorem tokensBefore_of_stop_le {q : Text} {place : Nat}
    (h : (Reader.ofText q).tokens.2.position ≤ place) :
    tokensBefore q place = (Reader.ofText q).tokens.1 := by
  obtain ⟨hbetween, -⟩ := (Reader.ofText q).pos_tokens
  rw [tokensBefore, List.filter_eq_self]
  intro t ht
  have hlt := (hbetween t ht).2
  simp only [decide_eq_true_eq, Int.ofNat_lt]
  omega

/-- Two tokens of a query stand at different places. -/
theorem eq_of_pos_eq {q : Text} {t u : Token} (ht : t ∈ (Reader.ofText q).tokens.1)
    (hu : u ∈ (Reader.ofText q).tokens.1) (hpos : t.pos = u.pos) : t = u := by
  obtain ⟨-, hpairwise, -⟩ := (Reader.ofText q).pos_tokens
  have hnodup : ((Reader.ofText q).tokens.1.map Token.pos).Nodup :=
    List.pairwise_map.2 (hpairwise.imp Nat.ne_of_lt)
  exact List.inj_on_of_nodup_map hnodup ht hu hpos

theorem stop_le_length (q : Text) : (Reader.ofText q).tokens.2.position ≤ q.length := by
  have hle := (Reader.ofText q).tokens.2.position_le
  rwa [Reader.source_tokens] at hle

namespace QueryError

variable {q : Text} {e : QueryError} {u : Token} {fault : Fault} {p : Nat}

/-- A token of the query is blamed when the automaton refuses it. -/
theorem blames_of_step {before rest : List Token} {σ : Automaton.State}
    (h : (Reader.ofText q).tokens.1 = before ++ u :: rest) (step : σ.step u = .error fault) :
    (ofSource q fault u.pos).Blames q u where
  mem := by
    rw [h]
    exact List.mem_append_right before List.mem_cons_self
  position := rfl
  fault := Automaton.State.fault_of_step step

theorem Blames.lt_stop (h : e.Blames q u) : u.pos < (Reader.ofText q).tokens.2.position :=
  ((Reader.ofText q).pos_tokens.1 u h.mem).2

theorem Blames.not_blamesEnd (h : e.Blames q u) : ¬ e.BlamesEnd q := by
  intro hend
  have hpos : u.pos = q.length := Int.ofNat_inj.1 (h.position.symm.trans hend.position)
  have hlt := Nat.lt_of_lt_of_le h.lt_stop (stop_le_length q)
  omega

/-- No token stands where reading stops or behind this place. -/
theorem not_blames (h : (Reader.ofText q).tokens.2.position ≤ p) :
    ¬ (ofSource q fault p).Blames q u := by
  intro hu
  have hpos : p = u.pos := Int.ofNat_inj.1 hu.position
  have hlt := hu.lt_stop
  omega

theorem not_blamesEnd (h : p < q.length) : ¬ (ofSource q fault p).BlamesEnd q := by
  intro hend
  have hpos : p = q.length := Int.ofNat_inj.1 hend.position
  omega

end QueryError

/-- No error comes later than it has to. The tokens before the place that is blamed can be completed
to a query that is accepted. Where a token is blamed, no query goes on with it; where the end of the
query is blamed, these are all of its tokens, and they are not a query. -/
theorem error_at_earliest_token {q : Text} {e : QueryError} (h : parse q = .error e) :
    let before := tokensBefore q e.position
    (∃ more, Accepted (before ++ more)) ∧
    (∀ u, e.Blames q u → ∀ more, ¬ Accepted (before ++ u :: more)) ∧
    (e.BlamesEnd q → tokenize q = .ok before ∧ ¬ Accepted before) ∧
    ((∃ u, e.Blames q u) ∨ e.BlamesEnd q ∨ e.BlamesCharacter q) := by
  intro before
  cases Automaton.refusal_of_parse h with
  | @token first rest u σ fault htokens leads step =>
    have hbefore : before = first := tokensBefore_eq htokens
    have hu := QueryError.blames_of_step htokens step
    rw [hbefore]
    refine ⟨leads.exists_accepted, ?_, fun hend => absurd hend hu.not_blamesEnd, Or.inl ⟨u, hu⟩⟩
    intro v hv
    obtain rfl : v = u := eq_of_pos_eq hv.mem hu.mem (Int.ofNat_inj.1 hv.position.symm)
    exact leads.not_accepted_of_step step
  | @early tokens σ fault htokenized leads finish =>
    have hbefore : before = tokens := by
      obtain ⟨htokens, -⟩ := tokenize_eq_ok_iff_atEnd.1 htokenized
      rw [← htokens]
      exact tokensBefore_of_stop_le (stop_le_length q)
    rw [hbefore]
    exact ⟨leads.exists_accepted, fun u hu => absurd hu (QueryError.not_blames (stop_le_length q)),
      fun _ => ⟨htokenized, leads.not_accepted_of_finish finish⟩,
      Or.inr (Or.inl ⟨rfl, Automaton.State.fault_of_finish finish⟩)⟩
  | @character start tail c σ hq hstop hc leads =>
    have hplace : (Reader.ofText q).tokens.2.position ≤ start.length := by
      rw [hstop]
      exact Nat.le_refl start.length
    have hget : q[start.length]? = some c := by rw [hq]; simp
    have hlt : start.length < q.length := (List.getElem?_eq_some_iff.1 hget).1
    have hbefore : before = (Reader.ofText q).tokens.1 := tokensBefore_of_stop_le hplace
    rw [hbefore]
    exact ⟨leads.exists_accepted, fun u hu => absurd hu (QueryError.not_blames hplace),
      fun hend => absurd hend (QueryError.not_blamesEnd hlt),
      Or.inr (Or.inr ⟨c, start.length, rfl, hget, hc⟩)⟩

/-- The query mixes the styles with its last token, and until then it has an open parenthesis. -/
theorem error_at_mixed_neighbour :
    let q := "a & (b c".toList
    let before : List Token := [⟨.term, ['a'], 0⟩, ⟨.and, ['&'], 2⟩, ⟨.opening, ['('], 4⟩,
      ⟨.term, ['b'], 5⟩]
    parse q = .error (.ofSource q .mixedStyle 7) ∧ (∃ more, Accepted (before ++ more)) ∧
      ∀ more, ¬ Accepted (before ++ ⟨.term, ['c'], 7⟩ :: more) := by
  intro q before
  have htokens : (Reader.ofText q).tokens.1 = before ++ [⟨.term, ['c'], 7⟩] := by decide +kernel
  have herror : parse q = .error (.ofSource q .mixedStyle 7) := by decide +kernel
  have hbefore : tokensBefore q 7 = before := tokensBefore_eq htokens
  have hblames : (QueryError.ofSource q .mixedStyle 7).Blames q ⟨.term, ['c'], 7⟩ :=
    ⟨by rw [htokens]; simp, rfl, Or.inr rfl⟩
  obtain ⟨hmore, hnone, -⟩ := error_at_earliest_token herror
  have hplace : (QueryError.ofSource q .mixedStyle 7).position = 7 := rfl
  rw [hplace, hbefore] at hmore hnone
  exact ⟨herror, hmore, hnone _ hblames⟩

end FuzzyQuery
