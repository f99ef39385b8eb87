import FuzzyQuery.Proofs.Grammar.Query

/-!
# Parsing as an automaton

Whether a query is accepted, and where and why it is refused, can be told in one pass over its
tokens. It is enough to know whether an operand is needed next, how many parentheses are open and
which style has been settled. Tokens are read one at a time, so a character that starts no token
matters only when the pass gets there.
-/

namespace FuzzyQuery

open Parse

namespace Reader

theorem next_cases (r : Reader) :
    (∃ t, r.scan = (some t, r.next.2) ∧ r.next.1 = .ok (some t)) ∨
      r.scan = (none, r.next.2) ∧ r.next.1 = r.next.2.checkEnd.map fun _ => none := by
  unfold next
  split
  · rename_i t _ hscan
    exact Or.inl ⟨t, hscan, rfl⟩
  · rename_i hscan
    exact Or.inr ⟨hscan, rfl⟩

variable {r r' : Reader}

theorem scan_of_next_some {t : Token} (h : r.next = (.ok (some t), r')) :
    r.scan = (some t, r') := by
  have hcases := r.next_cases
  rw [h] at hcases
  obtain ⟨u, hscan, hu⟩ | ⟨_, hend⟩ := hcases
  · cases hu
    exact hscan
  · unfold checkEnd at hend
    split at hend <;> cases hend

theorem tokens_of_next_some {t : Token} (h : r.next = (.ok (some t), r')) :
    r.tokens = (t :: r'.tokens.1, r'.tokens.2) := by
  have hscan := scan_of_next_some h
  rw [tokens_of_some (congrArg Prod.fst hscan), hscan]

theorem tokens_of_next_none (h : r.next = (.ok none, r')) :
    r.tokens = ([], r') ∧ r'.atEnd = true := by
  have hcases := r.next_cases
  rw [h] at hcases
  obtain ⟨_, _, hnone⟩ | ⟨hscan, hend⟩ := hcases
  · cases hnone
  · refine ⟨by rw [tokens_of_none (congrArg Prod.fst hscan), hscan], ?_⟩
    unfold checkEnd at hend
    split at hend
    · assumption
    · cases hend

theorem tokens_of_next_error {e : QueryError} (h : r.next = (.error e, r')) :
    r.tokens = ([], r') ∧ r'.atEnd = false ∧ e = r'.unexpected := by
  have hcases := r.next_cases
  rw [h] at hcases
  obtain ⟨_, _, herror⟩ | ⟨hscan, hend⟩ := hcases
  · cases herror
  · refine ⟨by rw [tokens_of_none (congrArg Prod.fst hscan), hscan], ?_⟩
    unfold checkEnd at hend
    split at hend
    · cases hend
    · rename_i hmore
      exact ⟨Bool.eq_false_iff.2 hmore, Except.error.inj hend⟩

theorem length_rest_next_lt {t : Token} (h : r.next = (.ok (some t), r')) :
    r'.rest.length < r.rest.length := by
  have hscan := scan_of_next_some h
  have hlt := length_rest_scan_lt (congrArg Prod.fst hscan)
  rwa [hscan] at hlt

end Reader

namespace Automaton

structure State where
  needed : Bool
  depth : Nat
  style : Option Style

namespace State

def start : State := ⟨true, 0, none⟩

def pin (used : Style) (σ : State) : Except Fault State :=
  match σ.style with
  | none => .ok { σ with style := some used }
  | some settled => if settled = used then .ok σ else .error .mixedStyle

def begin (t : Token) (σ : State) : Except Fault State :=
  match t.kind with
  | .term => .ok { σ with needed := false }
  | .not => .ok { σ with needed := true }
  | .opening => .ok { σ with needed := true, depth := σ.depth + 1 }
  | .and | .or | .closing => .error (.unexpectedToken (some t))

def step (t : Token) (σ : State) : Except Fault State :=
  if σ.needed then σ.begin t
  else match t.kind with
    | .term | .not | .opening => σ.pin .implicit >>= begin t
    | .and | .or => (σ.pin .explicit).map fun σ => { σ with needed := true }
    | .closing =>
      if 0 < σ.depth then .ok { σ with depth := σ.depth - 1 }
      else .error (.unexpectedToken (some t))

def finish (σ : State) : Except Fault Unit :=
  if σ.needed then .error (.unexpectedToken none)
  else if σ.depth = 0 then .ok ()
  else .error (.expectedPunctuation [')'])

end State

/-- Reads token after token, and stops at the first that is refused. The outcome comes with the
style that is left behind. -/
def run (σ : State) (r : Reader) : Except QueryError Unit × Option Style :=
  match h : r.next with
  | (.error e, _) => (.error e, σ.style)
  | (.ok none, _) =>
    match σ.finish with
    | .ok _ => (.ok (), σ.style)
    | .error fault => (.error (.ofSource r.source fault r.source.length), σ.style)
  | (.ok (some t), r') =>
    match σ.step t with
    | .ok σ' =>
      have : r'.rest.length < r.rest.length := Reader.length_rest_next_lt h
      run σ' r'
    | .error fault => (.error (.ofSource r.source fault t.pos), σ.style)
termination_by r.rest.length

inductive Verdict where
  | accepted (style : Option Style)
  | refused (fault : Fault) (style : Option Style) (rest : List Token)

/-- The automaton on tokens that have all been read already. -/
def judge (σ : State) : List Token → Verdict
  | [] =>
    match σ.finish with
    | .ok _ => .accepted σ.style
    | .error fault => .refused fault σ.style []
  | t :: rest =>
    match σ.step t with
    | .ok σ' => judge σ' rest
    | .error fault => .refused fault σ.style (t :: rest)

/-- A verdict as a session would report it, when no further token starts at `stop`. -/
def Verdict.report (stop : Reader) : Verdict → Except QueryError Unit × Option Style
  | accepted style => (stop.checkEnd, style)
  | refused fault style rest => (.error (Session.blame fault stop rest), style)

/-- Reading the tokens one at a time or all at once makes no difference. -/
theorem run_eq_report (σ : State) (r : Reader) :
    run σ r = (judge σ r.tokens.1).report r.tokens.2 := by
  fun_induction run σ r with
  | case1 σ r e r' hnext =>
    obtain ⟨htokens, hend, rfl⟩ := Reader.tokens_of_next_error hnext
    rw [htokens, judge]
    cases hfinish : σ.finish with
    | ok => simp [Verdict.report, Reader.checkEnd, hend]
    | error => simp [Verdict.report, Session.blame, hend]
  | case2 σ r r' hnext _ hfinish =>
    obtain ⟨htokens, hend⟩ := Reader.tokens_of_next_none hnext
    rw [htokens, judge, hfinish]
    simp [Verdict.report, Reader.checkEnd, hend]
  | case3 σ r r' hnext fault hfinish =>
    obtain ⟨htokens, hend⟩ := Reader.tokens_of_next_none hnext
    have hsource : r'.source = r.source := by
      rw [← Reader.source_tokens r, htokens]
    rw [htokens, judge, hfinish]
    simp [Verdict.report, Session.blame, hend, Reader.fail, (Reader.atEnd_iff r').1 hend, hsource]
  | case4 σ r t r' hnext σ' hstep _ ih =>
    rw [ih, Reader.tokens_of_next_some hnext, judge, hstep]
  | case5 σ r t r' hnext fault hstep =>
    have hsource := Reader.source_tokens r
    rw [Reader.tokens_of_next_some hnext] at hsource ⊢
    rw [judge, hstep]
    simp [Verdict.report, Session.blame, hsource]

end Automaton

end FuzzyQuery
