import FuzzyQuery.Proofs.OnDemand.Steps
import FuzzyQuery.Proofs.Session.Blame
import FuzzyQuery.Proofs.Session.Positions

/-!
# Parsing on demand comes to an end

A rule calls others before it takes a token only if these are of a lower rank, and after it has taken
one there is less to read. So the calls are nested no deeper than three times what is unread, and a
rule that is given this much always returns or fails. It does so as the parser does on the list of
all the tokens: the same tree or the same error, with the same style settled and the stream left at
the same place.
-/

namespace FuzzyQuery

open Parse

namespace Rule

open Reading

def step : Rule → Option Style → List Token → Step
  | primary => Parse.primary
  | operand => Parse.operand
  | juxtaposed earlier last => Parse.juxtaposed earlier last
  | expression => Parse.expression
  | climb left bound => Parse.climb left bound

/-- Before it has taken a token, a rule calls only rules of a lower rank. -/
def rank : Rule → Nat
  | primary | climb _ _ => 0
  | operand | juxtaposed _ _ => 1
  | expression => 2

def effort (rule : Rule) (s : Session) : Nat := 3 * s.stream.unread + rule.rank

def FollowsBelow (n : Nat) (call : Rule → Reading Tree) : Prop :=
  ∀ rule s, rule.effort s < n → Follows s (rule.step s.style s.stream.upcoming.1) (call rule s)

variable {n : Nat} {call : Rule → Reading Tree} {s : Session}

theorem FollowsBelow.follows (hf : FollowsBelow n call) (rule : Rule) (s : Session)
    {tokens : List Token} (htokens : s.stream.upcoming.1 = tokens) (hn : rule.effort s < n) :
    Follows s (rule.step s.style tokens) (call rule s) := by
  rw [← htokens]
  exact hf rule s hn

/-- A rule that returns has left less to read. -/
theorem Progresses.unread_le (h : Progresses call) {rule : Rule} {tree : Tree} {s' : Session}
    (hcall : call rule s = some (.ok tree, s')) :
    s'.stream.unread + rule.least ≤ s.stream.unread := by
  obtain ⟨taken, hpath, hleast⟩ := h rule s tree s' hcall
  have hunread := hpath.unread_le
  dsimp only at hleast
  omega

/-- A call after one that has returned can go less deep, by three for every token that was taken. -/
theorem FollowsBelow.after (hf : FollowsBelow n call) (hp : Progresses call) {rule : Rule}
    {tree : Tree} {s' : Session} (hcall : call rule s = some (.ok tree, s')) (following : Rule)
    (hn : following.effort s < n + 3 * rule.least) :
    Follows s' (following.step s'.style s'.stream.upcoming.1) (call following s') := by
  have hle := hp.unread_le hcall
  refine hf following s' ?_
  simp only [effort] at hn ⊢
  omega

theorem follows_readPrimary (hf : FollowsBelow n call) (hn : primary.effort s ≤ n) :
    Follows s (Parse.primary s.style s.stream.upcoming.1) (readPrimary call s) := by
  have hstays : StaysAtEnd Parse.primary := by
    intro style
    rw [Parse.primary]
    exact ⟨rfl, rfl⟩
  refine follows_peek hstays fun s₁ hready hle => ?_
  have hunexpected := hready.follows_unexpected
  simp only [effort, rank] at hn
  rcases htokens : s₁.stream.upcoming.1 with _ | ⟨t, rest⟩ <;> rw [htokens] at hunexpected
  · rw [Parse.primary]
    exact hunexpected
  · have hnext := next_of_cons htokens
    dsimp only [List.head?_cons]
    cases hkind : t.kind with
    | term =>
      rw [primary_term hkind]
      dsimp only
      rw [bind_of_ok hnext]
      refine follows_next htokens s₁.style fun hrest _ => ?_
      rw [← hrest]
      exact follows_read (.term t.value) _
    | not =>
      rw [primary_not hkind]
      dsimp only
      rw [bind_of_ok hnext]
      refine follows_next htokens s₁.style fun hrest hlt => ?_
      have hinner := hf.follows primary ⟨s₁.stream.next.2, s₁.style⟩ hrest
        (by simp only [effort, rank]; omega)
      exact hinner.map
    | opening =>
      have hexpect := expect_of_cons htokens .opening
      rw [if_pos hkind] at hexpect
      rw [primary_opening hkind]
      dsimp only
      rw [bind_of_ok hexpect]
      refine follows_next htokens s₁.style fun hrest hlt => ?_
      have hinner := hf.follows expression ⟨s₁.stream.next.2, s₁.style⟩ hrest
        (by simp only [effort, rank]; omega)
      exact hinner.bind (fun tree s' _ => follows_close tree s') fun _ _ => ⟨rfl, rfl⟩
    | and | or | closing =>
      rw [Parse.primary]
      simp only [hkind]
      exact hunexpected

theorem follows_juxtaposed (hp : Progresses call) (hf : FollowsBelow n call) (earlier : List Tree)
    (last : Tree) (hn : (juxtaposed earlier last).effort s ≤ n) :
    Follows s (Parse.juxtaposed earlier last s.style s.stream.upcoming.1)
      ((juxtaposed earlier last).body call s) := by
  rw [body, juxtapositionTurn, bind_assoc]
  refine follows_peek (fun style => ⟨rfl, rfl⟩) fun s₁ hready hle => ?_
  simp only [effort, rank] at hn
  have hread := follows_read (earlier.foldr (.op .or) last) s₁
  have hstopped := hready.follows_stopped .mixedStyle
  rcases htokens : s₁.stream.upcoming.1 with _ | ⟨t, rest⟩ <;> rw [htokens] at hread hstopped
  · exact hread
  have hahead : operandAhead (t :: rest) = t.kind.startsOperand := rfl
  dsimp only [List.head?_cons]
  by_cases hstart : t.kind.startsOperand = true
  · rw [if_pos hstart, bind_assoc]
    by_cases hpermits : permits s₁.style .implicit = true
    · rw [bind_of_ok (pin_of_permits hpermits t), bind_assoc,
        juxtaposed_of_ahead (hahead.trans hstart) hpermits]
      have hfirst := hf.follows primary ⟨s₁.stream, some .implicit⟩ htokens
        (by simp only [effort, rank]; omega)
      -- The style is settled before the operand is read, with the stream as it was.
      refine .of_handsOut (.refl s₁.stream) (hfirst.bind (fun following s₂ hcall => ?_) ?_)
      · exact hf.after hp hcall (juxtaposed (earlier ++ [last]) following)
          (by simp only [effort, rank, least]; omega)
      · exact fun tree style => ⟨rfl, rfl⟩
    · rw [bind_of_error (pin_of_refused hpermits t rest), Parse.juxtaposed, hahead, if_pos hstart,
        if_neg hpermits]
      exact hstopped
  · rw [if_neg hstart, Parse.juxtaposed, hahead, if_neg hstart]
    exact hread

theorem staysAtEnd_climb (left : Tree) (bound : Nat) : StaysAtEnd (Parse.climb left bound) := by
  intro style
  rw [Parse.climb]
  exact ⟨rfl, rfl⟩

theorem follows_climb (hp : Progresses call) (hf : FollowsBelow n call) (left : Tree)
    (bound : Nat) (hn : (climb left bound).effort s ≤ n) :
    Follows s (Parse.climb left bound s.style s.stream.upcoming.1)
      ((climb left bound).body call s) := by
  rw [body, climbTurn, bind_assoc]
  refine follows_peek (staysAtEnd_climb left bound) fun s₁ hready hle => ?_
  simp only [effort, rank] at hn
  have hread := follows_read left s₁
  have hstopped := hready.follows_stopped .mixedStyle
  rcases htokens : s₁.stream.upcoming.1 with _ | ⟨t, rest⟩ <;> rw [htokens] at hread hstopped
  · rw [Parse.climb]
    exact hread
  dsimp only [List.head?_cons]
  cases ho : t.kind.operator? with
  | none =>
    rw [Parse.climb]
    simp only [ho]
    exact hread
  | some o =>
    rw [climb_cons ho]
    dsimp only
    by_cases hbound : o.precedence ≤ bound
    · rw [if_pos hbound, if_pos hbound]
      exact hread
    rw [if_neg hbound, if_neg hbound, bind_assoc]
    by_cases hpermits : permits s₁.style .explicit = true
    · rw [bind_of_ok (pin_of_permits hpermits t), if_pos hpermits]
      have hnext : next ⟨s₁.stream, some .explicit⟩ =
          some (.ok (some t), ⟨s₁.stream.next.2, some .explicit⟩) := next_of_cons htokens
      -- The operator is taken first, so three calls in a row have less effort than this one.
      rw [bind_assoc, bind_of_ok hnext, bind_assoc]
      refine follows_next htokens (some .explicit) fun hrest hlt => ?_
      have hoperand := hf.follows operand ⟨s₁.stream.next.2, some .explicit⟩ hrest
        (by simp only [effort, rank]; omega)
      refine hoperand.bind (fun following s₂ hcall => ?_) fun following style => ?_
      · have hright := hf.after hp hcall (climb following o.precedence)
          (by simp only [effort, rank, least]; omega)
        have hlt₂ := hp.unread_le hcall
        dsimp only at hlt₂
        rw [bind_assoc]
        refine hright.bind (fun right s₃ hcall => ?_) fun right => staysAtEnd_climb _ bound
        exact hf.after hp hcall (climb (.op o left right) bound)
          (by simp only [effort, rank, least]; omega)
      · rw [Parse.climb]
        exact staysAtEnd_climb _ _ _
    · rw [bind_of_error (pin_of_refused hpermits t rest), if_neg hpermits]
      exact hstopped

theorem followsBelow_body (hp : Progresses call) (hf : FollowsBelow n call) :
    FollowsBelow (n + 1) fun rule => rule.body call := by
  intro rule s hn
  have hn := Nat.le_of_lt_succ hn
  cases rule with
  | primary => exact follows_readPrimary hf hn
  | operand =>
    have hfirst := hf primary s hn
    rw [step, operand_eq_juxtaposed]
    refine hfirst.bind (fun first s₁ hcall => ?_) fun tree style => ⟨rfl, rfl⟩
    exact hf.after hp hcall (juxtaposed [] first) (by simp only [effort, rank, least] at hn ⊢; omega)
  | juxtaposed earlier last => exact follows_juxtaposed hp hf earlier last hn
  | expression =>
    have hleft := hf operand s hn
    rw [step, expression_eq]
    refine hleft.bind (fun left s₁ hcall => ?_) fun tree => staysAtEnd_climb tree 0
    exact hf.after hp hcall (climb left 0) (by simp only [effort, rank, least] at hn ⊢; omega)
  | climb left bound => exact follows_climb hp hf left bound hn

/-- A rule that is given its effort always comes to its step. -/
theorem followsBelow_within (depth : Nat) : FollowsBelow depth (within depth) := by
  induction depth with
  | zero =>
    intro rule s hn
    exact absurd hn (Nat.not_lt_zero _)
  | succ depth ih => exact followsBelow_body (progresses_within depth) ih

end Rule

namespace Reading

theorem Follows.finishes {s : Session} {step : Step}
    {ended : Option (Except QueryError Tree × Session)} (h : Follows s step ended) :
    ∃ result, ended = some result := by
  obtain ⟨taken, stream, -, -, hends⟩ := h
  cases hends <;> exact ⟨_, rfl⟩

end Reading

open Rule Reading

def Parse.finish (tree : Tree) (style : Option Style) : List Token → Step
  | [] => .read tree style []
  | t :: rest => unexpected style (t :: rest)

theorem Parse.query_eq_bind (tokens : List Token) :
    Parse.query tokens = (Parse.expression none tokens).bind finish := by
  rw [Parse.query]
  rcases Parse.expression none tokens with ⟨tree, style, _ | ⟨t, rest⟩⟩ | _ <;> rfl

/-- Whatever has been looked at on the way, a parse that has taken the same tokens leaves the same
session. -/
theorem Session.parse_of_handsOut {s : Session} {taken : List Token} {stream : TokenStream}
    (h : s.stream.HandsOut taken stream)
    (hrest : stream.upcoming.1 = (Parse.query s.stream.upcoming.1).rest) :
    s.parse = (outcome stream.upcoming.2 (Parse.query s.stream.upcoming.1),
      ⟨stream.peek.2, (Parse.query s.stream.upcoming.1).style⟩) := by
  have hupcoming := h.upcoming_eq
  have hlength : s.stream.upcoming.1.length - (Parse.query s.stream.upcoming.1).rest.length =
      taken.length := by
    rw [← hrest, hupcoming, List.length_append]
    exact Nat.add_sub_cancel _ _
  have hstop : s.stream.upcoming.2 = stream.upcoming.2 := by rw [hupcoming]
  rw [h.peek_eq, ← hlength, ← hstop]
  rfl

/-- The look behind the expression ends the query, or finds what should not be there. -/
theorem finish_apply (tree : Tree) (s : Session) :
    finish tree s =
      some (Session.outcome s.stream.upcoming.2 (Parse.finish tree s.style s.stream.upcoming.1),
        ⟨s.stream.peek.2, s.style⟩) := by
  rcases hs : s.stream.upcoming with ⟨_ | ⟨t, rest⟩, stop⟩
  · have hstream := TokenStream.peek_of_upcoming_nil hs
    rw [Parse.finish, Session.outcome, hstream]
    cases hend : stop.checkEnd <;> rw [hend] at hstream
    · exact bind_of_error (ofStream_of_eq hstream)
    · exact bind_of_ok (ofStream_of_eq hstream)
  · have htoken := (TokenStream.peek_of_upcoming_cons hs).1
    have hpeek : peek s = some (.ok (some t), ⟨s.stream.peek.2, s.style⟩) :=
      ofStream_of_eq (Prod.ext htoken rfl)
    have hstop : stop.source = s.stream.peek.2.source := by
      rw [(TokenStream.LeadsTo.peek s.stream).source, ← s.stream.source_upcoming, hs]
    rw [Rule.finish, bind_of_ok hpeek, Parse.finish, Parse.unexpected, Session.outcome,
      Session.blame, hstop]
    rfl

/-- A parse on demand that may go as deep as it has to is the parse of all the tokens. -/
theorem parseWithin_eq {s : Session} {depth : Nat} (h : 3 * s.stream.unread + 2 < depth) :
    parseWithin depth s = some s.parse := by
  have hfollows := followsBelow_within depth expression { s with style := none } h
  obtain ⟨taken, stream, hpath, hrest, hends⟩ := hfollows
  have hparse := Session.parse_of_handsOut (s := s) hpath
  rw [Parse.query_eq_bind] at hparse
  rw [Rule.step] at hrest hends
  rw [parseWithin]
  dsimp only at hrest hends
  generalize Parse.expression none s.stream.upcoming.1 = step at hparse hrest hends
  generalize hended : within depth expression { s with style := none } = ended at hends
  cases hends with
  | returned tree rest s' =>
    obtain rfl : s'.stream.upcoming.1 = rest := hrest
    have hrest : s'.stream.upcoming.1 =
        (Parse.finish tree s'.style s'.stream.upcoming.1).rest := by
      cases s'.stream.upcoming.1 <;> rfl
    have hstyle : (Parse.finish tree s'.style s'.stream.upcoming.1).style = s'.style := by
      cases s'.stream.upcoming.1 <;> rfl
    rw [bind_of_ok hended, finish_apply, hparse hrest, Step.bind, hstyle]
  | refused tree style rest h =>
    have hnone := (blame_of_refused h .mixedStyle).1
    obtain rfl : rest = [] := hrest.symm.trans hnone
    rw [bind_of_error hended, hparse hrest, Step.bind, Parse.finish, Session.outcome, h]
    rw [TokenStream.peek_of_upcoming_nil (Prod.ext hnone rfl)] at h
    cases hend : stream.upcoming.2.checkEnd <;> rw [hend] at h <;> cases h
    rfl
  | stopped fault style rest stream =>
    rw [bind_of_error hended, hparse hrest]
    rfl

/-- A parse on demand that succeeds has taken every token, each one once. -/
theorem handsOut_of_parseWithin {s s' : Session} {depth : Nat} {tree : Tree}
    (h : parseWithin depth s = some (.ok tree, s')) :
    s.stream.HandsOut s.stream.upcoming.1 s'.stream := by
  obtain ⟨read, s₁, hread, hfinish⟩ := bind_eq_ok h
  obtain ⟨taken, hpath, -⟩ := progresses_within depth expression _ read s₁ hread
  rw [finish_apply] at hfinish
  obtain ⟨houtcome, hs'⟩ := Prod.ext_iff.1 (Option.some.inj hfinish)
  obtain ⟨-, style, rest, hstep⟩ := Session.outcome_eq_ok_iff.1 houtcome
  have hnone : s₁.stream.upcoming.1 = [] := by
    cases htokens : s₁.stream.upcoming.1 with
    | nil => rfl
    | cons t rest =>
      rw [htokens] at hstep
      cases hstep
  have hall : s.stream.upcoming.1 = taken ++ [] := by
    rw [hpath.upcoming_eq, hnone]
  have hs' : s₁.stream.peek.2 = s'.stream := congrArg Session.stream hs'
  rw [hall, ← hs']
  exact hpath.trans (.peek s₁.stream)

/-- A parse that succeeds takes every token, each one once, and there is a derivation from these
tokens. -/
theorem handsOut_of_parse {s : Session} {tree : Tree} (h : s.parse.1 = .ok tree) :
    s.stream.HandsOut s.stream.upcoming.1 s.parse.2.stream ∧
      s.parse.2.stream = ⟨s.stream.upcoming.2, none⟩ ∧ s.stream.upcoming.2.atEnd = true ∧
      ∃ style, Derives style .expression s.stream.upcoming.1 tree := by
  have hwithin : parseWithin (3 * s.stream.unread + 3) s = some (.ok tree, s.parse.2) := by
    rw [parseWithin_eq (Nat.lt_succ_self _), ← h]
  have hparse : s.parse.1 = Session.outcome s.stream.upcoming.2
      (Parse.query s.stream.upcoming.1) := rfl
  rw [hparse] at h
  obtain ⟨hend, style, rest, hread⟩ := Session.outcome_eq_ok_iff.1 h
  obtain ⟨rfl, used, hderives, -⟩ := query_eq_read_iff.1 hread
  exact ⟨handsOut_of_parseWithin hwithin, Session.stream_parse_of_rest_nil (congrArg _ hread),
    hend, used, hderives⟩

/-- Taking tokens until there is none takes all that are to come. -/
theorem tokens_eq_drain {n : Nat} {s : Session} (h : s.stream.unread < n) :
    Reading.tokens n s = some (s.stream.drain.1, { s with stream := s.stream.drain.2 }) := by
  induction n generalizing s with
  | zero => exact absurd h (Nat.not_lt_zero _)
  | succ n ih =>
    rw [Reading.tokens]
    rcases hs : s.stream.upcoming with ⟨_ | ⟨t, rest⟩, stop⟩
    · have hstream := TokenStream.next_of_upcoming_nil hs
      have hdrain : s.stream.drain = (stop.checkEnd.map fun _ => [], ⟨stop, none⟩) := by
        simp only [TokenStream.drain, hs]
      rw [hdrain]
      cases hend : stop.checkEnd <;> rw [hend] at hstream
      · exact bind_of_error (ofStream_of_eq hstream)
      · exact bind_of_ok (ofStream_of_eq hstream)
    · have htokens : s.stream.upcoming.1 = t :: rest := congrArg Prod.fst hs
      have hrest := (TokenStream.next_of_upcoming_cons hs).2
      have hlt := (TokenStream.handsOut_next htokens).unread_le
      have hmore := @ih ⟨s.stream.next.2, s.style⟩ (Nat.lt_of_lt_of_le hlt (Nat.le_of_lt_succ h))
      simp only [TokenStream.drain, hrest] at hmore
      rw [bind_of_ok (next_of_cons htokens)]
      simp only [TokenStream.drain, hs]
      cases hend : stop.checkEnd <;> rw [hend] at hmore
      · exact bind_of_error hmore
      · exact bind_of_ok hmore

theorem Reader.position_next_lt {r r' : Reader} {t : Token} (h : r.next = (.ok (some t), r')) :
    r.position < r'.position ∧ r'.source = r.source := by
  have hsource := r.source_next
  obtain ⟨-, hfound⟩ := r.positions_next
  rw [h] at hsource hfound
  have hplace := hfound t (List.mem_singleton_self t)
  exact ⟨Nat.lt_of_le_of_lt hplace.1 hplace.2, hsource⟩

/-- The second stream is reached from the first one by taking a token, or several, and less is left
unread. -/
def TokenStream.Advances (s s' : TokenStream) : Prop :=
  ∃ t more, s.HandsOut (t :: more) s' ∧ s'.unread < s.unread

theorem Reading.Gains.advances {α : Type} {least : α → Nat} {s s' : Session} {a : α}
    {ended : Option (Except QueryError α × Session)} (h : Gains s least ended)
    (hended : ended = some (.ok a, s')) (hleast : 0 < least a) : s.stream.Advances s'.stream := by
  obtain ⟨taken, hpath, hle⟩ := h a s' hended
  have hunread := hpath.unread_le
  cases taken with
  | nil => exact absurd (Nat.lt_of_lt_of_le hleast hle) (Nat.not_lt_zero _)
  | cons t more => exact ⟨t, more, hpath, by rw [List.length_cons] at hunread; omega⟩

/-- Reading and parsing come to an end, from every state of a stream and whatever its text is. A
token that is read moves the reader on. A primary, an operand or an expression that is returned has
taken a token, and so has every turn of the two loops that goes on. Hence calls that are nested no
deeper than three times what is unread are enough for each rule to return or to fail, and no limit
beyond this makes a difference: the tokens are all tokens, and the parse is the parse. One that
succeeds has taken every token once, in order, and has left the reader at the end of the query. -/
theorem reading_terminates :
    (∀ s : Session,
      (∀ t r, s.stream.reader.next = (.ok (some t), r) →
        s.stream.reader.position < r.position ∧ r.source = s.stream.source) ∧
      (∀ depth rule tree s', rule = .primary ∨ rule = .operand ∨ rule = .expression →
        within depth rule s = some (.ok tree, s') → s.stream.Advances s'.stream) ∧
      (∀ depth tree s', juxtapositionTurn (within depth) s = some (.ok (some tree), s') →
        s.stream.Advances s'.stream) ∧
      (∀ depth left bound tree s',
        climbTurn (within depth) left bound s = some (.ok (some tree), s') →
        s.stream.Advances s'.stream) ∧
      (∀ depth rule, 3 * s.stream.unread + rule.rank < depth →
        ∃ result, within depth rule s = some result) ∧
      (∀ n, s.stream.unread < n →
        Reading.tokens n s = some (s.stream.drain.1, { s with stream := s.stream.drain.2 })) ∧
      (∀ depth, 3 * s.stream.unread + 2 < depth → parseWithin depth s = some s.parse) ∧
      (∀ tree, s.parse.1 = .ok tree →
        s.stream.HandsOut s.stream.upcoming.1 s.parse.2.stream ∧
        s.parse.2.stream = ⟨s.stream.upcoming.2, none⟩ ∧ s.stream.upcoming.2.atEnd = true ∧
        ∃ style, Derives style .expression s.stream.upcoming.1 tree)) ∧
    (∀ q : Text,
      (Reading.tokens (q.length + 1) (.ofText q)).map Prod.fst = some (tokenize q) ∧
      (parseWithin (3 * q.length + 3) (.ofText q)).map Prod.fst = some (parse q) ∧
      ∀ tree, parse q = .ok tree → ∃ tokens, tokenize q = .ok tokens ∧
        (TokenStream.ofText q).HandsOut tokens (Session.ofText q).parse.2.stream) := by
  refine ⟨fun s => ⟨fun t r => Reader.position_next_lt, ?_, fun depth tree s' h => ?_,
    fun depth left bound tree s' h => ?_, fun depth rule h => ?_, fun n => tokens_eq_drain,
    fun depth => parseWithin_eq, fun tree => handsOut_of_parse⟩, fun q => ?_⟩
  · intro depth rule tree s' hrule h
    have hgains := progresses_within depth rule s
    obtain rfl | rfl | rfl := hrule <;> exact hgains.advances h Nat.one_pos
  · exact (gains_juxtapositionTurn (progresses_within depth) s).advances h Nat.one_pos
  · exact (gains_climbTurn (progresses_within depth) left bound s).advances h Nat.one_pos
  · exact (followsBelow_within depth rule s h).finishes
  · have hunread : (Session.ofText q).stream.unread = q.length := TokenStream.unread_ofText q
    rw [tokens_eq_drain (by omega), parseWithin_eq (by omega)]
    refine ⟨rfl, rfl, fun tree h => ?_⟩
    obtain ⟨htaken, -, hend, -⟩ := handsOut_of_parse h
    exact ⟨_, tokenize_eq_ok_iff_atEnd.2 ⟨rfl, hend⟩, htaken⟩

/-- A group with a juxtaposition in it, the turn that joins it to what stands before, and a turn that
folds an operator. -/
theorem reading_terminates_group :
    let s := Session.ofText "(a b) !c".toList
    let o := Session.ofText "& b".toList
    let group : Tree := .op .or (.term ['a']) (.term ['b'])
    let conjunction : Tree := .op .and (.term ['a']) (.term ['b'])
    (∃ s', within 9 .primary s = some (.ok group, s') ∧ s.stream.Advances s'.stream) ∧
    (∃ s', juxtapositionTurn (within 9) s = some (.ok (some group), s') ∧
      s.stream.Advances s'.stream) ∧
    (∃ s', climbTurn (within 9) (.term ['a']) 0 o = some (.ok (some conjunction), s') ∧
      o.stream.Advances s'.stream) ∧
    parseWithin 27 s = some s.parse ∧
    s.parse.1 = .ok (.op .or group (.not (.term ['c']))) ∧
    s.stream.HandsOut s.stream.upcoming.1 s.parse.2.stream := by
  intro s o group conjunction
  obtain ⟨-, hrule, hturn, -, -, -, hparse, hall⟩ := reading_terminates.1 s
  obtain ⟨-, -, -, hclimb, -⟩ := reading_terminates.1 o
  have hprimary : within 9 .primary s =
      some (.ok group, ⟨⟨⟨"(a b)".toList, " !c".toList⟩, none⟩, some .implicit⟩) := by decide +kernel
  have hgroup : juxtapositionTurn (within 9) s =
      some (.ok (some group), ⟨⟨⟨"(a b)".toList, " !c".toList⟩, none⟩, some .implicit⟩) := by decide +kernel
  have hfold : climbTurn (within 9) (.term ['a']) 0 o =
      some (.ok (some conjunction), ⟨⟨⟨"& b".toList, []⟩, none⟩, some .explicit⟩) := by decide +kernel
  have htree : s.parse.1 = .ok (.op .or group (.not (.term ['c']))) := by decide +kernel
  exact ⟨⟨_, hprimary, hrule 9 _ group _ (.inl rfl) hprimary⟩, ⟨_, hgroup, hturn 9 group _ hgroup⟩,
    ⟨_, hfold, hclimb 9 _ 0 conjunction _ hfold⟩, hparse 27 (by decide), htree,
    (hall _ htree).1⟩

end FuzzyQuery
