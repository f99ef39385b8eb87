import FuzzyQuery.Proofs.Automaton.Completion
import FuzzyQuery.Proofs.Juxtaposition.Query
import FuzzyQuery.Proofs.Session

/-!
# Parsing and layout

Two queries whose tokens are of the same kinds and values are parsed in lockstep, wherever these
tokens stand. The automaton takes the same steps on both, so it accepts both or it refuses both at
the same token. Which spaces there are, which words are quoted and which escapes are written makes a
difference to the places that errors blame and to nothing else.
-/

namespace FuzzyQuery

def Fault.unplaced (fault : Fault) : Fault := fault.onTokens Token.unplaced

theorem Fault.message_unplaced (fault : Fault) : fault.unplaced.message = fault.message :=
  message_onTokens keepsContent_unplaced fault

namespace Automaton

variable {f : Token → Token}

def Verdict.onTokens (f : Token → Token) : Verdict → Verdict
  | accepted style => accepted style
  | refused fault style rest => refused (fault.onTokens f) style (rest.map f)

namespace State

theorem begin_map (hf : KeepsContent f) (t : Token) (σ : State) :
    σ.begin (f t) = (σ.begin t).mapError (Fault.onTokens f) := by
  unfold begin
  rw [hf.kind]
  cases t.kind with
  | term | not | opening | and | or | closing => rfl

/-- One step on a token that is moved. -/
theorem step_map (hf : KeepsContent f) (t : Token) (σ : State) :
    σ.step (f t) = (σ.step t).mapError (Fault.onTokens f) := by
  obtain ⟨needed, depth, style⟩ := σ
  cases needed with
  | true => exact begin_map hf t _
  | false =>
    cases hkind : t.kind with
    | term | not | opening =>
      have ht : t.kind.startsOperand = true := by rw [hkind]; rfl
      have ht' : (f t).kind.startsOperand = true := by rw [hf.kind, ht]
      rw [step_operand depth ht, step_operand depth ht']
      split
      · exact begin_map hf t _
      · rfl
    | and | or =>
      obtain ⟨o, ho⟩ : ∃ o, t.kind.operator? = some o := by rw [hkind]; exact ⟨_, rfl⟩
      have ho' : (f t).kind.operator? = some o := by rw [hf.kind, ho]
      rw [step_operator depth ho, step_operator depth ho']
      split
      · rfl
      · rfl
    | closing =>
      rw [step_closing depth style hkind, step_closing depth style ((hf.kind t).trans hkind)]
      split
      · rfl
      · rfl

end State

/-- A whole pass over tokens that are moved comes to the same verdict, in which the tokens are moved
as well. -/
theorem judge_map (hf : KeepsContent f) (σ : State) (tokens : List Token) :
    judge σ (tokens.map f) = (judge σ tokens).onTokens f := by
  induction tokens generalizing σ with
  | nil =>
    rw [List.map_nil, judge]
    cases hfinish : σ.finish with
    | ok => rfl
    | error fault =>
      obtain rfl | rfl := State.fault_of_finish hfinish
      · rfl
      · rfl
  | cons t tokens ih =>
    rw [List.map_cons, judge, judge, State.step_map hf]
    cases σ.step t with
    | ok σ' => exact ih σ'
    | error => rfl

theorem judge_of_content_eq {ts us : List Token}
    (h : ts.map Token.content = us.map Token.content) (σ : State) :
    (judge σ ts).onTokens Token.unplaced = (judge σ us).onTokens Token.unplaced := by
  rw [← judge_map keepsContent_unplaced, ← judge_map keepsContent_unplaced,
    map_unplaced_of_content_eq h]

variable {q q' : Text} {tokens tokens' rest rest' : List Token} {style : Option Style}
  {fault fault' : Fault} {u : Token}

theorem judge_of_accepted (h : tokens.map Token.content = tokens'.map Token.content)
    (hjudge : judge .start tokens = .accepted style) :
    judge .start tokens' = .accepted style := by
  have hverdict := judge_of_content_eq h .start
  rw [hjudge] at hverdict
  cases hjudge' : judge .start tokens' with
  | accepted =>
    rw [hjudge'] at hverdict
    cases hverdict
    rfl
  | refused =>
    rw [hjudge'] at hverdict
    cases hverdict

theorem judge_of_refused (h : tokens.map Token.content = tokens'.map Token.content)
    (hjudge : judge .start tokens = .refused fault style rest) :
    ∃ fault' rest', judge .start tokens' = .refused fault' style rest' ∧
      fault.unplaced = fault'.unplaced ∧
      rest.map Token.unplaced = rest'.map Token.unplaced := by
  have hverdict := judge_of_content_eq h .start
  rw [hjudge] at hverdict
  cases hjudge' : judge .start tokens' with
  | accepted =>
    rw [hjudge'] at hverdict
    cases hverdict
  | refused fault' style' rest' =>
    rw [hjudge'] at hverdict
    obtain ⟨hfault, rfl, hrest⟩ := Verdict.refused.inj hverdict
    exact ⟨fault', rest', rfl, hfault, hrest⟩

/-- The place of the first of the tokens that are left; without one, the end of the query. -/
def blamedPlace (q : Text) (rest : List Token) : Nat := (rest.head?.map Token.pos).getD q.length

/-- When all of a query is tokens, the verdict on them is all there is to report. -/
theorem report_of_tokenize (h : tokenize q = .ok tokens) :
    ((Session.ofText q).parse.1.map fun _ => (), (Session.ofText q).parse.2.style) =
      (judge .start tokens).report ⟨q, []⟩ := by
  obtain ⟨rfl, hend⟩ := tokenize_eq_ok_iff_atEnd.1 h
  have hsource := Reader.source_tokens (Reader.ofText q)
  rw [Session.parse_ofText, Session.style_parse_ofText, report_query]
  generalize (Reader.ofText q).tokens.2 = stop at hend hsource
  obtain ⟨seen, rest⟩ := stop
  obtain rfl : rest = [] := List.isEmpty_iff.1 hend
  have hseen : seen = q := by rwa [Reader.source_ofText, Reader.source, List.append_nil] at hsource
  rw [hseen]

theorem parse_of_accepted (h : tokenize q = .ok tokens)
    (hjudge : judge .start tokens = .accepted style) :
    (∃ tree, parse q = .ok tree) ∧ (Session.ofText q).parse.2.style = style := by
  have hreport := report_of_tokenize h
  rw [hjudge] at hreport
  refine ⟨?_, congrArg Prod.snd hreport⟩
  cases hparse : parse q with
  | ok tree => exact ⟨tree, rfl⟩
  | error e =>
    rw [parse] at hparse
    rw [hparse] at hreport
    cases hreport

theorem parse_of_refused (h : tokenize q = .ok tokens)
    (hjudge : judge .start tokens = .refused fault style rest) :
    parse q = .error (.ofSource q fault (blamedPlace q rest)) ∧
      (Session.ofText q).parse.2.style = style := by
  have hreport := report_of_tokenize h
  rw [hjudge] at hreport
  refine ⟨?_, congrArg Prod.snd hreport⟩
  have hsource : (⟨q, []⟩ : Reader).source = q := List.append_nil q
  have hblame : Session.blame fault ⟨q, []⟩ rest =
      .ofSource q fault (blamedPlace q rest) := by
    cases rest with
    | nil => exact congrArg (fun source => QueryError.ofSource source fault q.length) hsource
    | cons u rest => exact congrArg (fun source => QueryError.ofSource source fault u.pos) hsource
  cases hparse : parse q with
  | ok tree =>
    rw [parse] at hparse
    rw [hparse] at hreport
    cases hreport
  | error e =>
    rw [parse] at hparse
    rw [hparse] at hreport
    rw [← hblame]
    exact congrArg Except.error (Except.error.inj (congrArg Prod.fst hreport))

/-- The token that is blamed is the first of those that are left. -/
theorem blames_of_refused (h : tokenize q = .ok tokens)
    (hjudge : judge .start tokens = .refused fault style (u :: rest)) :
    tokens[tokens.length - (rest.length + 1)]? = some u ∧
      (QueryError.ofSource q fault u.pos).Blames q u := by
  have hends := ends_judge .start tokens
  rw [hjudge] at hends
  obtain ⟨htokens, -⟩ := tokenize_eq_ok_iff_atEnd.1 h
  cases hends with
  | @refused before u σ fault leads step rest =>
    exact ⟨by simp, QueryError.blames_of_step htokens step⟩

theorem blamesEnd_of_refused (hjudge : judge .start tokens = .refused fault style []) :
    (QueryError.ofSource q fault q.length).BlamesEnd q := by
  have hends := ends_judge .start tokens
  rw [hjudge] at hends
  cases hends with
  | early leads finish => exact ⟨rfl, State.fault_of_finish finish⟩

/-- As many tokens are left in the one query as in the other, so the places that are blamed
correspond. -/
theorem blames_together (h : tokenize q = .ok tokens) (h' : tokenize q' = .ok tokens')
    (hlength : tokens.length = tokens'.length)
    (hjudge : judge .start tokens = .refused fault style rest)
    (hjudge' : judge .start tokens' = .refused fault' style rest')
    (hrest : rest.map Token.unplaced = rest'.map Token.unplaced) :
    let e := QueryError.ofSource q fault (blamedPlace q rest)
    let e' := QueryError.ofSource q' fault' (blamedPlace q' rest')
    (∃ (i : Nat) (t t' : Token), tokens[i]? = some t ∧ tokens'[i]? = some t' ∧
      e.Blames q t ∧ e'.Blames q' t') ∨ e.BlamesEnd q ∧ e'.BlamesEnd q' := by
  have hleft : rest.length = rest'.length := by simpa using congrArg List.length hrest
  cases rest with
  | nil =>
    obtain rfl : rest' = [] := List.eq_nil_of_length_eq_zero hleft.symm
    exact Or.inr ⟨blamesEnd_of_refused hjudge, blamesEnd_of_refused hjudge'⟩
  | cons t rest =>
    cases rest' with
    | nil => cases hleft
    | cons t' rest' =>
      obtain ⟨hindex, hblames⟩ := blames_of_refused h hjudge
      obtain ⟨hindex', hblames'⟩ := blames_of_refused h' hjudge'
      have hsame : tokens'.length - (rest'.length + 1) = tokens.length - (rest.length + 1) := by
        simp only [List.length_cons] at hleft
        omega
      rw [hsame] at hindex'
      exact Or.inl ⟨_, t, t', hindex, hindex', hblames, hblames'⟩

end Automaton

open Automaton

/-- Parsing hangs on the kinds and the values of the tokens alone. Two queries that agree in these
leave the same style behind. Either both are parsed, to the same tree, or both are refused with the
same fault and the same message, and each error blames the token at the same index in its query, or
each blames the end of its query. -/
theorem parse_of_same_contents {q q' : Text} {tokens tokens' : List Token}
    (h : tokenize q = .ok tokens) (h' : tokenize q' = .ok tokens')
    (heq : tokens.map Token.content = tokens'.map Token.content) :
    (Session.ofText q).parse.2.style = (Session.ofText q').parse.2.style ∧
    ((∃ tree, parse q = .ok tree ∧ parse q' = .ok tree) ∨
      ∃ e e', parse q = .error e ∧ parse q' = .error e' ∧
        e.fault.unplaced = e'.fault.unplaced ∧ e.message = e'.message ∧
        ((∃ (i : Nat) (t t' : Token), tokens[i]? = some t ∧ tokens'[i]? = some t' ∧
            e.Blames q t ∧ e'.Blames q' t') ∨
          e.BlamesEnd q ∧ e'.BlamesEnd q')) := by
  cases hjudge : judge .start tokens with
  | accepted style =>
    obtain ⟨⟨tree, htree⟩, hstyle⟩ := parse_of_accepted h hjudge
    obtain ⟨-, hstyle'⟩ := parse_of_accepted h' (judge_of_accepted heq hjudge)
    obtain ⟨ts, hts, s, hs⟩ := parse_eq_ok_iff.1 htree
    cases h.symm.trans hts
    exact ⟨hstyle.trans hstyle'.symm,
      Or.inl ⟨tree, htree, (hs.parse_of_content_eq h' heq.symm).1⟩⟩
  | refused fault style rest =>
    obtain ⟨fault', rest', hjudge', hfault, hrest⟩ := judge_of_refused heq hjudge
    obtain ⟨herror, hstyle⟩ := parse_of_refused h hjudge
    obtain ⟨herror', hstyle'⟩ := parse_of_refused h' hjudge'
    have hmessage : fault.message = fault'.message := by
      rw [← fault.message_unplaced, ← fault'.message_unplaced, hfault]
    have hlength : tokens.length = tokens'.length := by simpa using congrArg List.length heq
    exact ⟨hstyle.trans hstyle'.symm, Or.inr ⟨_, _, herror, herror', hfault, hmessage,
      blames_together h h' hlength hjudge hjudge' hrest⟩⟩

/-- The second query has other spaces, a word in quotes and quotes that are left open. Both mix the
styles at their last token. -/
theorem parse_of_same_contents_mixed :
    let q := "a & (b c".toList
    let q' := "\"a\"&(b\"c".toList
    let tokens : List Token := [⟨.term, ['a'], 0⟩, ⟨.and, ['&'], 2⟩, ⟨.opening, ['('], 4⟩,
      ⟨.term, ['b'], 5⟩, ⟨.term, ['c'], 7⟩]
    let tokens' : List Token := [⟨.term, ['a'], 0⟩, ⟨.and, ['&'], 3⟩, ⟨.opening, ['('], 4⟩,
      ⟨.term, ['b'], 5⟩, ⟨.term, ['c'], 6⟩]
    tokenize q = .ok tokens ∧ tokenize q' = .ok tokens' ∧
      tokens.map Token.content = tokens'.map Token.content ∧
      parse q = .error (.ofSource q .mixedStyle 7) ∧
      ∃ e', parse q' = .error e' ∧ e'.fault = .mixedStyle ∧ e'.position = 6 := by
  intro q q' tokens tokens'
  have h : tokenize q = .ok tokens := by decide +kernel
  have h' : tokenize q' = .ok tokens' := by decide +kernel
  have heq : tokens.map Token.content = tokens'.map Token.content := by decide
  have herror : parse q = .error (.ofSource q .mixedStyle 7) := by decide +kernel
  obtain ⟨-, ⟨tree, htree, -⟩ | ⟨e, e', he, he', hfault, -, hplaces⟩⟩ :=
    parse_of_same_contents h h' heq
  · cases herror.symm.trans htree
  · cases herror.symm.trans he
    obtain ⟨i, t, t', ht, ht', hblames, hblames'⟩ | ⟨hend, -⟩ := hplaces
    · have hpos : (tokens.map Token.pos)[i]? = some 7 := by
        rw [List.getElem?_map, ht]
        exact congrArg some (Int.ofNat_inj.1 hblames.position.symm)
      have honly : ∀ i < 5, (tokens.map Token.pos)[i]? = some 7 → i = 4 := by decide
      obtain rfl : i = 4 := honly i (List.getElem?_eq_some_iff.1 ht).1 hpos
      cases ht'
      refine ⟨h, h', heq, herror, e', he', ?_, hblames'.position⟩
      obtain hunexpected | hmixed := hblames'.fault
      · rw [hunexpected] at hfault
        cases hfault
      · exact hmixed
    · exact absurd hend (QueryError.not_blamesEnd (by decide))

end FuzzyQuery
