import FuzzyQuery.Proofs.Automaton.Content
import FuzzyQuery.Proofs.Automaton.Nesting
import FuzzyQuery.Proofs.Concatenation
import FuzzyQuery.Proofs.Rendering

/-!
# Queries made of queries

A query in parentheses means what it means alone, and two of them can be joined by an operator or by
juxtaposition. What is joined keeps its tree. The parts must agree in their style, with each other
and with the joint between them; a query whose parts do not agree is refused for mixing styles.
-/

namespace FuzzyQuery

open Parse Automaton

def grouped (q : Text) : Text := '(' :: (q ++ [')'])

def joined (q between q' : Text) : Text := grouped q ++ (between ++ grouped q')

/-- Tokens in parentheses that are by themselves read to the tree and leave the style behind. -/
inductive GroupOf (tree : Tree) (style : Option Style) : List Token → Prop
  | intro {o c : Token} {ts : List Token} (ho : o.kind = .opening)
      (hquery : Parse.query ts = .read tree style []) (hc : c.kind = .closing) :
      GroupOf tree style (o :: (ts ++ [c]))

variable {tree : Tree} {style : Option Style} {s : Style} {tokens rest : List Token}

theorem expression_of_query (h : Parse.query tokens = .read tree style []) :
    Parse.expression none tokens = .read tree style [] := by
  unfold Parse.query at h
  split at h
  · cases h
    assumption
  · cases h
  · cases h

/-- A query is derived in the grammar of every style that it leaves open. -/
theorem derives_of_query (h : Parse.query tokens = .read tree style [])
    (hs : permits style s = true) : Derives s .expression tokens tree := by
  obtain ⟨used, hused, -, hderives⟩ := (expression_takes (expression_of_query h)).1
  rw [List.append_nil] at hused
  rw [hused]
  exact hderives s hs

theorem Automaton.State.eq_of_finish {σ : State} (h : σ.finish = .ok ()) :
    σ = ⟨false, 0, σ.style⟩ := by
  obtain ⟨needed, depth, style⟩ := σ
  unfold finish at h
  split at h
  · cases h
  · split at h
    · simp_all
    · cases h

/-- The automaton takes the tokens of a query and has no open parentheses then. -/
theorem Automaton.leads_of_query (h : Parse.query tokens = .read tree style []) :
    Leads .start tokens ⟨false, 0, style⟩ := by
  have hends := ends_judge .start tokens
  rw [judge_eq_ofStep, h, Verdict.ofStep] at hends
  cases hends with
  | accepted leads finish =>
    rw [State.eq_of_finish finish] at leads
    exact leads

namespace GroupOf

theorem derives (h : GroupOf tree style tokens) (hs : permits style s = true) :
    Derives s .primary tokens tree := by
  cases h with
  | intro ho hquery hc => exact .group ho (derives_of_query hquery hs) hc

/-- A group has a style in which it is derived and which it leaves behind. -/
theorem exists_derives (h : GroupOf tree style tokens) :
    ∃ s, Derives s .primary tokens tree ∧ settle s tree none = style := by
  cases h with
  | intro ho hquery hc =>
    obtain ⟨-, s, hderives, rfl⟩ := query_eq_read_iff.1 hquery
    exact ⟨s, .group ho hderives hc, rfl⟩

theorem judge (h : GroupOf tree style tokens) (depth : Nat) (rest : List Token) :
    judge ⟨true, depth, none⟩ (tokens ++ rest) = judge ⟨false, depth, style⟩ rest := by
  cases h with
  | intro ho hquery hc =>
    rw [List.cons_append, List.append_assoc, List.singleton_append]
    exact (leads_of_query hquery).judge_group ho hc depth rest

theorem judge_of_not_permits (h : GroupOf tree style tokens) (hs : ¬ permits style s = true)
    (depth : Nat) :
    ∃ rest, Automaton.judge ⟨true, depth, some s⟩ tokens = .refused .mixedStyle (some s) rest := by
  cases h with
  | intro ho hquery hc =>
    exact (leads_of_query hquery).judge_group_of_not_permits ho hs depth _

end GroupOf

inductive Joint where
  | operator (o : Operator)
  | space

namespace Joint

def text : Joint → Text
  | operator o => [' ', o.symbol, ' ']
  | space => [' ']

def sign : Joint → Operator
  | operator o => o
  | space => .or

def used : Joint → Style
  | operator _ => .explicit
  | space => .implicit

inductive Tokens : Joint → List Token → Prop
  | operator {t : Token} {o : Operator} (ho : t.kind.operator? = some o) : Tokens (operator o) [t]
  | space : Tokens space []

variable {j : Joint} {sep ls rs : List Token} {l r : Tree}

theorem Tokens.derives (h : j.Tokens sep) (hl : Derives j.used .primary ls l)
    (hr : Derives j.used .primary rs r) :
    Derives j.used .expression (ls ++ (sep ++ rs)) (.op j.sign l r) := by
  cases h with
  | space => exact .juxtaposed hl (.operand hr)
  | @operator t o ho =>
    cases hkind : t.kind <;> rw [hkind] at ho <;> cases ho
    · exact .conjunction (.and (.single hl) hkind hr)
    · exact .or (.conjunction (.single hl)) hkind (.single hr)

/-- A joint in front of a group settles its style, if this one is open. -/
theorem Tokens.judge (h : j.Tokens sep) (hr : GroupOf tree style rs) (m : Option Style) :
    Automaton.judge ⟨false, 0, m⟩ (sep ++ rs) =
      if permits m j.used then Automaton.judge ⟨true, 0, some j.used⟩ rs
      else .refused .mixedStyle m (sep ++ rs) := by
  cases h with
  | operator ho => exact judge_operator 0 ho
  | space =>
    cases hr with
    | @intro o _ _ ho _ _ =>
      have hoperand : o.kind.startsOperand = true := by rw [ho]; rfl
      exact judge_operand 0 hoperand

/-- Groups that do not both leave the style of the joint open are refused. -/
theorem Tokens.judge_joined_of_not_permits (h : j.Tokens sep) {m m' : Option Style}
    (hl : GroupOf l m ls) (hr : GroupOf r m' rs)
    (hmixed : ¬ (permits m j.used = true ∧ permits m' j.used = true)) :
    ∃ style rest, Automaton.judge .start (ls ++ (sep ++ rs)) =
      .refused .mixedStyle style rest := by
  rw [State.start, hl.judge, h.judge hr]
  by_cases hm : permits m j.used = true
  · rw [if_pos hm]
    exact ⟨_, hr.judge_of_not_permits (fun hm' => hmixed ⟨hm, hm'⟩) 0⟩
  · rw [if_neg hm]
    exact ⟨m, _, rfl⟩

/-- The joint is read between two groups. -/
theorem exists_reads (j : Joint) (seen after : Text) :
    ∃ sep, j.Tokens sep ∧
      (⟨seen, j.text ++ after⟩ : Reader).Reads sep ⟨seen ++ j.text, after⟩ := by
  cases j with
  | space => exact ⟨[], .space, Reader.reads_spaces seen after onlySpaces_singleton⟩
  | operator o =>
    obtain ⟨kind, hsymbol, hkind⟩ := o.exists_kind
    obtain ⟨t, ht, hsign⟩ := reads_symbol kind hsymbol seen onlySpaces_singleton (' ' :: after)
    have hspace := Reader.reads_spaces (seen ++ [' '] ++ [o.symbol]) after onlySpaces_singleton
    have hall := hsign.trans hspace
    simp only [List.append_assoc, List.singleton_append] at hall
    exact ⟨[t], .operator (by rw [ht]; exact hkind), hall⟩

end Joint

theorem noWordAcross_of_stop (before : Text) {after : Text}
    (stop : ∀ c ∈ after.head?, isWordChar c = false) : NoWordAcross before after :=
  fun _ _ _ => stop

theorem Derives.expression_of_primary (h : Derives s .primary tokens tree) :
    Derives s .expression tokens tree := by
  cases s with
  | explicit => exact .conjunction (.single h)
  | implicit => exact .operand h

variable {q q' : Text} {tree' : Tree} {l : Layout q} {l' : Layout q'}

/-- The tokens of a query that is parsed. -/
theorem Layout.query_of_parse (l : Layout q) (h : parse q = .ok tree) :
    Parse.query l.tokens = .read tree (Session.ofText q).parse.2.style [] := by
  obtain ⟨htokens, -⟩ := tokenize_eq_ok_iff_atEnd.1 (tokenize_of_layout l)
  rw [parse, Session.parse_ofText, htokens] at h
  obtain ⟨-, style, rest, hquery⟩ := Session.outcome_eq_ok_iff.1 h
  obtain ⟨rfl, -⟩ := query_eq_read_iff.1 hquery
  rw [Session.style_parse_ofText, htokens, hquery]
  rfl

/-- In parentheses a closed query is read as a group, whatever follows. -/
theorem Layout.Closed.exists_group (hl : l.Closed) (h : parse q = .ok tree) (seen after : Text) :
    ∃ ts, GroupOf tree (Session.ofText q).parse.2.style ts ∧
      (⟨seen, grouped q ++ after⟩ : Reader).Reads ts ⟨seen ++ grouped q, after⟩ := by
  have stop : ∀ c ∈ (')' :: after).head?, isWordChar c = false := by
    intro c hc
    cases hc
    rfl
  have hquery := l.query_of_parse h
  obtain ⟨o, ho, hopening⟩ := reads_symbol .opening rfl seen onlySpaces_nil (q ++ ')' :: after)
  have hinside := (l.reads hl (noWordAcross_of_stop q stop)).behind (seen ++ ['('])
  obtain ⟨c, hc, hclosing⟩ := reads_symbol .closing rfl (seen ++ ['('] ++ q) onlySpaces_nil after
  simp only [Reader.behind, Reader.ofText, List.append_nil, List.nil_append, List.append_assoc,
    List.singleton_append] at hopening hinside hclosing
  refine ⟨o :: (l.tokens.map (Token.moved (seen ++ ['(']).length) ++ [c]), .intro ho ?_ hc, ?_⟩
  · rw [query_map (keepsContent_moved _), hquery]
    rfl
  · have hall := hopening.trans (hinside.trans hclosing)
    simpa only [grouped, List.append_assoc, List.cons_append, List.nil_append] using hall

theorem tokenize_of_reads {seen : Text} (h : (Reader.ofText q).Reads tokens ⟨seen, []⟩) :
    tokenize q = .ok tokens :=
  tokenize_of_ended (Reader.tokens_of_reads h)

theorem parse_grouped (hl : l.Closed) (h : parse q = .ok tree) :
    parse (grouped q) = .ok tree ∧
      (Session.ofText (grouped q)).parse.2.style = (Session.ofText q).parse.2.style := by
  obtain ⟨ts, hgroup, hreads⟩ := hl.exists_group h [] []
  rw [List.append_nil] at hreads
  obtain ⟨s, hderives, hstyle⟩ := hgroup.exists_derives
  rw [← hstyle]
  exact hderives.expression_of_primary.parse_of_content_eq (tokenize_of_reads hreads) rfl

theorem parse_not_grouped (hl : l.Closed) (h : parse q = .ok tree) :
    parse ('!' :: grouped q) = .ok (.not tree) ∧
      (Session.ofText ('!' :: grouped q)).parse.2.style = (Session.ofText q).parse.2.style := by
  obtain ⟨bang, hbang, hnot⟩ := reads_symbol .not rfl [] onlySpaces_nil (grouped q)
  obtain ⟨ts, hgroup, hreads⟩ := hl.exists_group h ['!'] []
  rw [List.append_nil] at hreads
  obtain ⟨s, hderives, hstyle⟩ := hgroup.exists_derives
  have hall := tokenize_of_reads (q := '!' :: grouped q) (hnot.trans hreads)
  rw [← hstyle]
  exact (Derives.not hbang hderives).expression_of_primary.parse_of_content_eq hall rfl

/-- Two groups with a joint between them are read one after the other. -/
theorem exists_joined (hl : l.Closed) (hl' : l'.Closed) (h : parse q = .ok tree)
    (h' : parse q' = .ok tree') (j : Joint) :
    ∃ ls sep rs, tokenize (joined q j.text q') = .ok (ls ++ (sep ++ rs)) ∧
      GroupOf tree (Session.ofText q).parse.2.style ls ∧ j.Tokens sep ∧
      GroupOf tree' (Session.ofText q').parse.2.style rs := by
  obtain ⟨ls, hleft, hreads⟩ := hl.exists_group h [] (j.text ++ grouped q')
  obtain ⟨sep, hsep, hjoint⟩ := j.exists_reads ([] ++ grouped q) (grouped q')
  obtain ⟨rs, hright, hreads'⟩ := hl'.exists_group h' ([] ++ grouped q ++ j.text) []
  rw [List.append_nil] at hreads'
  exact ⟨ls, sep, rs, tokenize_of_reads (hreads.trans (hjoint.trans hreads')), hleft, hsep,
    hright⟩

/-- Queries that leave the style of the joint open are joined to one query. -/
theorem parse_joined (hl : l.Closed) (hl' : l'.Closed) (h : parse q = .ok tree)
    (h' : parse q' = .ok tree') {j : Joint}
    (hm : permits (Session.ofText q).parse.2.style j.used = true)
    (hm' : permits (Session.ofText q').parse.2.style j.used = true) :
    parse (joined q j.text q') = .ok (.op j.sign tree tree') := by
  obtain ⟨ls, sep, rs, htokens, hleft, hsep, hright⟩ := exists_joined hl hl' h h' j
  have hderives := hsep.derives (hleft.derives hm) (hright.derives hm')
  exact (hderives.parse_of_content_eq htokens rfl).1

/-- Queries of which one does not leave the style of the joint open cannot be joined. -/
theorem parse_joined_of_not_permits (hl : l.Closed) (hl' : l'.Closed) (h : parse q = .ok tree)
    (h' : parse q' = .ok tree') {j : Joint}
    (hmixed : ¬ (permits (Session.ofText q).parse.2.style j.used = true ∧
      permits (Session.ofText q').parse.2.style j.used = true)) :
    ∃ place, parse (joined q j.text q') =
      .error (.ofSource (joined q j.text q') .mixedStyle place) := by
  obtain ⟨ls, sep, rs, htokens, hleft, hsep, hright⟩ := exists_joined hl hl' h h' j
  obtain ⟨style, rest, hjudge⟩ := hsep.judge_joined_of_not_permits hleft hright hmixed
  exact ⟨_, (parse_of_refused htokens hjudge).1⟩

theorem permits_explicit_iff : permits style .explicit = true ↔ style ≠ some .implicit := by
  rcases style with _ | _ | _ <;> decide

theorem permits_implicit_iff : permits style .implicit = true ↔ style ≠ some .explicit := by
  rcases style with _ | _ | _ <;> decide

/-- Accepted queries in which every quoted term is closed compose as texts. In parentheses, and
negated in parentheses, such a query keeps its tree and its style. Two of them can be joined by an
operator unless one is written in the implicit style, and by juxtaposition unless one is written in
the explicit style; otherwise the joined query is refused for mixing styles. -/
theorem queries_compose {q₁ q₂ : Text} {t₁ t₂ : Tree} {l₁ : Layout q₁} {l₂ : Layout q₂}
    (hl₁ : l₁.Closed) (hl₂ : l₂.Closed) (h₁ : parse q₁ = .ok t₁) (h₂ : parse q₂ = .ok t₂) :
    let m₁ := (Session.ofText q₁).parse.2.style
    let m₂ := (Session.ofText q₂).parse.2.style
    (parse (grouped q₁) = .ok t₁ ∧ (Session.ofText (grouped q₁)).parse.2.style = m₁) ∧
    (parse ('!' :: grouped q₁) = .ok (.not t₁) ∧
      (Session.ofText ('!' :: grouped q₁)).parse.2.style = m₁) ∧
    (∀ o : Operator,
      let q := joined q₁ [' ', o.symbol, ' '] q₂
      (m₁ ≠ some .implicit ∧ m₂ ≠ some .implicit → parse q = .ok (.op o t₁ t₂)) ∧
      (m₁ = some .implicit ∨ m₂ = some .implicit →
        ∃ place, parse q = .error (.ofSource q .mixedStyle place))) ∧
    let q := joined q₁ [' '] q₂
    (m₁ ≠ some .explicit ∧ m₂ ≠ some .explicit → parse q = .ok (.op .or t₁ t₂)) ∧
      (m₁ = some .explicit ∨ m₂ = some .explicit →
        ∃ place, parse q = .error (.ofSource q .mixedStyle place)) := by
  intro m₁ m₂
  refine ⟨parse_grouped hl₁ h₁, parse_not_grouped hl₁ h₁, fun o => ⟨?_, ?_⟩, ?_, ?_⟩
  · rintro ⟨hm₁, hm₂⟩
    exact parse_joined hl₁ hl₂ h₁ h₂ (j := .operator o) (permits_explicit_iff.2 hm₁)
      (permits_explicit_iff.2 hm₂)
  · intro hm
    apply parse_joined_of_not_permits hl₁ hl₂ h₁ h₂ (j := .operator o)
    rintro ⟨hm₁, hm₂⟩
    exact hm.elim (permits_explicit_iff.1 hm₁) (permits_explicit_iff.1 hm₂)
  · rintro ⟨hm₁, hm₂⟩
    exact parse_joined hl₁ hl₂ h₁ h₂ (j := .space) (permits_implicit_iff.2 hm₁)
      (permits_implicit_iff.2 hm₂)
  · intro hm
    apply parse_joined_of_not_permits hl₁ hl₂ h₁ h₂ (j := .space)
    rintro ⟨hm₁, hm₂⟩
    exact hm.elim (permits_implicit_iff.1 hm₁) (permits_implicit_iff.1 hm₂)

def layoutOfQuotedClosing : Layout "a | \")\"".toList where
  lead := []
  pieces := [⟨⟨.term, ['a'], 0⟩, ['a'], [' '], true⟩, ⟨⟨.or, ['|'], 2⟩, ['|'], [' '], true⟩,
    ⟨⟨.term, [')'], 4⟩, ['"', ')', '"'], [], true⟩]
  query_eq := rfl
  spaces := onlySpaces_nil
  lined := by
    have hspace : isWordChar ' ' = false := rfl
    refine ⟨⟨rfl, ?_, .word rfl ?_, onlySpaces_singleton⟩,
      ⟨rfl, ?_, .symbol (show TokenKind.or.symbol = ['|'] from rfl) _, onlySpaces_singleton⟩,
      ⟨rfl, ?_, .quoted (.plain ?_ ?_ .nil) _, onlySpaces_nil⟩, trivial⟩
    all_goals simp [NoWordAcross, Piece.text, hspace]

def layoutOfNegatedWord : Layout "!c".toList where
  lead := []
  pieces := [⟨⟨.not, ['!'], 0⟩, ['!'], [], true⟩, ⟨⟨.term, ['c'], 1⟩, ['c'], [], true⟩]
  query_eq := rfl
  spaces := onlySpaces_nil
  lined := by
    have hbang : isWordChar '!' = false := rfl
    refine ⟨⟨rfl, ?_, .symbol (show TokenKind.not.symbol = ['!'] from rfl) _, onlySpaces_nil⟩,
      ⟨rfl, ?_, .word rfl ?_, onlySpaces_nil⟩, trivial⟩
    all_goals simp [NoWordAcross, Piece.text, Piece.textOf, hbang]

theorem queries_compose_quoted_closing :
    let q₁ := "a | \")\"".toList
    let q₂ := "!c".toList
    let t₁ := Tree.op .or (.term ['a']) (.term [')'])
    let t₂ := Tree.not (.term ['c'])
    layoutOfQuotedClosing.Closed ∧ layoutOfNegatedWord.Closed ∧
      (Session.ofText q₁).parse.2.style = some .explicit ∧
      (Session.ofText q₂).parse.2.style = none ∧
      parse "(a | \")\")".toList = .ok t₁ ∧ parse "!(a | \")\")".toList = .ok (.not t₁) ∧
      parse "(a | \")\") & (!c)".toList = .ok (.op .and t₁ t₂) ∧
      parse "(!c) (!c)".toList = .ok (.op .or t₂ t₂) ∧
      ∃ place, parse "(a | \")\") (!c)".toList =
        .error (.ofSource "(a | \")\") (!c)".toList .mixedStyle place) := by
  intro q₁ q₂ t₁ t₂
  have hl₁ : layoutOfQuotedClosing.Closed := by simp [Layout.Closed, layoutOfQuotedClosing]
  have hl₂ : layoutOfNegatedWord.Closed := by simp [Layout.Closed, layoutOfNegatedWord]
  have h₁ : parse q₁ = .ok t₁ := by decide +kernel
  have h₂ : parse q₂ = .ok t₂ := by decide +kernel
  have hm₁ : (Session.ofText q₁).parse.2.style = some .explicit := by decide +kernel
  have hm₂ : (Session.ofText q₂).parse.2.style = none := by decide +kernel
  obtain ⟨⟨hgroup, -⟩, ⟨hnot, -⟩, hoperator, -, hspace⟩ := queries_compose hl₁ hl₂ h₁ h₂
  obtain ⟨-, -, -, htwice, -⟩ := queries_compose hl₂ hl₂ h₂ h₂
  rw [hm₁] at hoperator hspace
  rw [hm₂] at hoperator htwice
  exact ⟨hl₁, hl₂, hm₁, hm₂, hgroup, hnot, (hoperator .and).1 (by decide), htwice (by decide),
    hspace (.inl rfl)⟩

end FuzzyQuery
