import FuzzyQuery.Matcher
import FuzzyQuery.Proofs.Grammar.Position
import FuzzyQuery.Proofs.Grammar.Query
import FuzzyQuery.Proofs.Juxtaposition
import FuzzyQuery.Proofs.Layout

/-!
# Queries with their bars written out

A query of the implicit style may be written in the explicit style, with a `|` put into the gap at
every juxtaposition and nothing else changed. The query is accepted then too, and it gives the same
results on every subject.
-/

namespace FuzzyQuery

open Parse Piece

def Piece.Adjoins (p : Piece) (rest : List Piece) : Prop :=
  ∃ q ∈ rest.head?, Juxtaposed p.token q.token

/-- The text writes the pieces one after the other, with one `|` at every juxtaposition, which
stands before, behind or among the spaces there. -/
inductive Barred : List Piece → Text → Prop
  | nil : Barred [] []
  | apart {p : Piece} {rest : List Piece} {text : Text} (h : ¬ p.Adjoins rest)
      (more : Barred rest text) : Barred (p :: rest) (p.lexeme ++ (p.gap ++ text))
  | adjoined {p : Piece} {rest : List Piece} {text left right : Text} (h : p.Adjoins rest)
      (hgap : p.gap = left ++ right) (more : Barred rest text) :
      Barred (p :: rest) (p.lexeme ++ (left ++ '|' :: (right ++ text)))

def Layout.WrittenOut {query : Text} (l : Layout query) (text : Text) : Prop :=
  ∃ rest, text = l.lead ++ rest ∧ Barred l.pieces rest

theorem exists_barred (pieces : List Piece) : ∃ text, Barred pieces text := by
  induction pieces with
  | nil => exact ⟨[], .nil⟩
  | cons p rest ih =>
    obtain ⟨text, more⟩ := ih
    by_cases h : p.Adjoins rest
    · exact ⟨_, .adjoined h (List.append_nil p.gap).symm more⟩
    · exact ⟨_, .apart h more⟩

theorem barBetween_of_adjoins {p : Piece} {rest : List Piece} (h : p.Adjoins rest) :
    barBetween p.token (rest.map Piece.token) = [bar] := by
  obtain ⟨q, hq, hj⟩ := h
  cases rest with
  | nil => cases hq
  | cons q' rest =>
    cases hq
    exact barBetween_of_juxtaposed hj _

theorem barBetween_of_not_adjoins {p : Piece} {rest : List Piece} (h : ¬ p.Adjoins rest) :
    barBetween p.token (rest.map Piece.token) = [] := by
  refine barBetween_of_not_juxtaposed fun u hu hj => ?_
  rw [List.head?_map, Option.mem_def, Option.map_eq_some_iff] at hu
  obtain ⟨q, hq, rfl⟩ := hu
  exact h ⟨q, hq, hj⟩

/-- Whether a lexeme may be followed by a text hangs on the first character of the text. -/
theorem Written.of_head?_eq {closed : Bool} {kind : TokenKind} {value lexeme after after' : Text}
    (h : Written closed kind value lexeme after) (heq : after'.head? = after.head?) :
    Written closed kind value lexeme after' := by
  cases h with
  | symbol hc => exact .symbol hc _
  | word hw stop => exact .word hw (by rwa [heq])
  | quoted hd => exact .quoted hd _
  | unclosed hr =>
    rw [List.head?_nil, List.head?_eq_none_iff] at heq
    rw [heq]
    exact .unclosed hr

theorem Barred.head?_eq {pieces : List Piece} {text before : Text} (h : Barred pieces text)
    (hp : Lined before pieces) : text.head? = (textOf pieces).head? := by
  cases h with
  | nil => rfl
  | apart | adjoined =>
    obtain ⟨c, t, hlexeme⟩ := List.exists_cons_of_ne_nil hp.1.written.ne_nil
    rw [textOf_cons, hlexeme]
    rfl

theorem Piece.Stands.closed_of_adjoins {p : Piece} {rest : List Piece} {before : Text}
    (h : p.Stands before (textOf rest)) (hrest : Lined (before ++ p.text) rest)
    (hadjoins : p.Adjoins rest) : p.closed = true := by
  refine h.written.closed_of_ne_nil fun hnil => ?_
  obtain ⟨q, hq, _⟩ := hadjoins
  cases rest with
  | nil => cases hq
  | cons q' rest =>
    rw [textOf_cons] at hnil
    exact hrest.1.written.ne_nil (List.append_eq_nil_iff.1 (List.append_eq_nil_iff.1 hnil).2).1

/-- Behind an operand spaces or a `|` may follow. -/
theorem Piece.Stands.written_bar {p : Piece} {before after left : Text}
    (h : p.Stands before after) (hclosed : p.closed = true) (hleft : OnlySpaces left)
    (more : Text) :
    Written true p.token.kind p.token.value p.lexeme (left ++ '|' :: more) := by
  have hwritten := h.written
  rw [hclosed, ← List.nil_append (p.gap ++ after)] at hwritten
  refine hwritten.of_append.append fun c hc => ?_
  cases left with
  | nil =>
    cases hc
    rfl
  | cons d left =>
    cases hc
    rw [hleft c List.mem_cons_self]
    rfl

/-- The tokens of a text that writes out the pieces are those of the pieces with the bars. -/
theorem Barred.tokens {pieces : List Piece} {text : Text} (h : Barred pieces text) (seen : Text)
    {lead before : Text} (hl : OnlySpaces lead) (hp : Lined before pieces) :
    ∃ ts, (⟨seen, lead ++ text⟩ : Reader).tokens = (ts, ⟨seen ++ lead ++ text, []⟩) ∧
      ts.map Token.content = (withBars (pieces.map Piece.token)).map Token.content := by
  induction h generalizing seen lead before with
  | nil =>
    refine ⟨[], ?_, rfl⟩
    rw [List.append_nil, List.append_nil]
    exact Reader.tokens_of_scans_none (.ended seen hl)
  | @apart p rest text hapart more ih =>
    obtain ⟨hstands, hrest⟩ := hp
    have hhead : (p.gap ++ text).head? = (p.gap ++ textOf rest).head? := by
      rw [List.head?_append, List.head?_append, more.head?_eq hrest]
    have hfound := Scans.found seen hl (hstands.written.of_head?_eq hhead)
    obtain ⟨ts, htokens, hcontent⟩ := ih (seen ++ lead ++ p.lexeme) hstands.spaces hrest
    refine ⟨⟨p.token.kind, p.token.value, (seen ++ lead).length⟩ :: ts, ?_, ?_⟩
    · rw [Reader.tokens_of_scans_some hfound, htokens]
      simp only [List.append_assoc]
    · simp only [List.map_cons, withBars, barBetween_of_not_adjoins hapart, hcontent]
      rfl
  | @adjoined p rest text left right hadjoins hgap more ih =>
    obtain ⟨hstands, hrest⟩ := hp
    have hspaces := hstands.spaces
    rw [hgap] at hspaces
    have hleft : OnlySpaces left := fun c hc => hspaces c (List.mem_append_left right hc)
    have hright : OnlySpaces right := fun c hc => hspaces c (List.mem_append_right left hc)
    have hclosed := hstands.closed_of_adjoins hrest hadjoins
    have hfound := Scans.found seen hl (hstands.written_bar hclosed hleft (right ++ text))
    have hsymbol : TokenKind.or.symbol = ['|'] := rfl
    have hbar := Scans.found (seen ++ lead ++ p.lexeme) hleft
      (.symbol hsymbol (right ++ text))
    rw [List.singleton_append] at hbar
    obtain ⟨ts, htokens, hcontent⟩ :=
      ih (seen ++ lead ++ p.lexeme ++ left ++ ['|']) hright hrest
    refine ⟨⟨p.token.kind, p.token.value, (seen ++ lead).length⟩ ::
      ⟨.or, ['|'], (seen ++ lead ++ p.lexeme ++ left).length⟩ :: ts, ?_, ?_⟩
    · rw [Reader.tokens_of_scans_some hfound, Reader.tokens_of_scans_some hbar, htokens]
      simp only [List.append_assoc, List.cons_append, List.nil_append]
    · simp only [List.map_cons, withBars, barBetween_of_adjoins hadjoins, hcontent]
      rfl

theorem Layout.WrittenOut.tokenize_eq {query text : Text} {l : Layout query}
    (h : l.WrittenOut text) :
    ∃ ts, tokenize text = .ok ts ∧
      ts.map Token.content = (withBars l.tokens).map Token.content := by
  obtain ⟨rest, rfl, hbarred⟩ := h
  obtain ⟨ts, htokens, hcontent⟩ := hbarred.tokens [] l.spaces l.lined
  exact ⟨ts, tokenize_of_ended htokens, hcontent⟩

/-- A query that leaves the implicit style behind has been derived in the implicit grammar. -/
theorem derives_of_implicit {q : Text} {tree : Tree} (h : parse q = .ok tree)
    (hstyle : (Session.ofText q).parse.2.style = some .implicit) :
    ∃ tokens, tokenize q = .ok tokens ∧ Derives .implicit .expression tokens tree ∧
      tree.hasOperator = true := by
  obtain ⟨tokens, htokens, s, hs⟩ := parse_eq_ok_iff.1 h
  rw [style_parse_of_derives htokens hs, settle] at hstyle
  split at hstyle
  · rename_i hop
    cases hstyle
    exact ⟨tokens, htokens, hs, hop⟩
  · cases hstyle

theorem Derives.parse_of_content_eq {q : Text} {s : Style} {ts us : List Token} {tree : Tree}
    (h : Derives s .expression ts tree) (hus : tokenize q = .ok us)
    (heq : us.map Token.content = ts.map Token.content) :
    parse q = .ok tree ∧ (Session.ofText q).parse.2.style = settle s tree none := by
  obtain ⟨rfl, hend⟩ := tokenize_eq_ok_iff_atEnd.1 hus
  have hquery := query_of_content_eq heq (query_of_derives h)
  rw [parse, Session.parse_ofText, Session.style_parse_ofText, hquery]
  exact ⟨Session.outcome_eq_ok_iff.2 ⟨hend, _, _, rfl⟩, rfl⟩

/-- Juxtaposition means the same as `|`. A query that leaves the implicit style behind can be
written out, and however its bars are placed it is then a query that leaves the explicit style
behind and gives the same verdict and the same hits in the same order, whatever the subject and
whatever the findings to start from. -/
theorem execute_writtenOut {q : Text} {tree : Tree} (h : (Session.ofText q).parse.1 = .ok tree)
    (hstyle : (Session.ofText q).parse.2.style = some .implicit) :
    (∃ (l : Layout q) (text : Text), l.WrittenOut text) ∧
    ∀ (l : Layout q) (text : Text), l.WrittenOut text →
      ∃ u, (Session.ofText text).parse.1 = .ok u ∧
        (Session.ofText text).parse.2.style = some .explicit ∧
        ∀ subject f, u.evaluate subject f = tree.evaluate subject f ∧
          ((Matcher.ofText text).execute subject f).result =
            ((Matcher.ofText q).execute subject f).result := by
  obtain ⟨tokens, htokens, hderives, hop⟩ := derives_of_implicit h hstyle
  obtain ⟨u, hu, halike⟩ := hderives.exists_explicit
  constructor
  · obtain ⟨l, -⟩ := tokenize_eq_ok_iff.1 htokens
    obtain ⟨rest, hbarred⟩ := exists_barred l.pieces
    exact ⟨l, _, rest, rfl, hbarred⟩
  · intro l text hwritten
    obtain ⟨ts, hts, hcontent⟩ := hwritten.tokenize_eq
    obtain rfl : l.tokens = tokens := Except.ok.inj ((tokenize_of_layout l).symm.trans htokens)
    obtain ⟨hparse, hsettled⟩ := hu.parse_of_content_eq hts hcontent
    refine ⟨u, hparse, hsettled.trans ?_, fun subject f => ?_⟩
    · rw [settle, halike.hasOperator, if_pos hop]
    · have heq := halike.evaluate_eq subject f
      have hq : parse q = .ok tree := h
      refine ⟨heq, ?_⟩
      simp only [Matcher.execute, Matcher.compile, Matcher.ofText, hparse, hq, Except.map,
        Tree.search, heq]

def layoutOfGroup : Layout "a (b c) d".toList where
  lead := []
  pieces := [⟨⟨.term, ['a'], 0⟩, ['a'], [' '], true⟩, ⟨⟨.opening, ['('], 2⟩, ['('], [], true⟩,
    ⟨⟨.term, ['b'], 3⟩, ['b'], [' '], true⟩, ⟨⟨.term, ['c'], 5⟩, ['c'], [], true⟩,
    ⟨⟨.closing, [')'], 6⟩, [')'], [' '], true⟩, ⟨⟨.term, ['d'], 8⟩, ['d'], [], true⟩]
  query_eq := rfl
  spaces := by simp [OnlySpaces]
  lined := by
    have word (c : Char) (after : Text) (hc : isWordChar c = true)
        (stop : ∀ d ∈ after.head?, isWordChar d = false) : Written true .term [c] [c] after :=
      .word (by simp [Text.isWord, hc]) stop
    have hspace : isWordChar ' ' = false := rfl
    have hopening : isWordChar '(' = false := rfl
    have hclosing : isWordChar ')' = false := rfl
    refine ⟨⟨rfl, ?_, word 'a' _ rfl ?_, ?_⟩, ⟨rfl, ?_, .symbol rfl _, ?_⟩,
      ⟨rfl, ?_, word 'b' _ rfl ?_, ?_⟩, ⟨rfl, ?_, word 'c' _ rfl ?_, ?_⟩,
      ⟨rfl, ?_, .symbol rfl _, ?_⟩, ⟨rfl, ?_, word 'd' _ rfl ?_, ?_⟩, trivial⟩
    all_goals simp [NoWordAcross, OnlySpaces, textOf, Piece.text, hspace, hopening, hclosing]

theorem writtenOut_layoutOfGroup : layoutOfGroup.WrittenOut "a |(b| c) |d".toList := by
  refine ⟨_, ?_, .adjoined ⟨_, rfl, by decide⟩ (List.append_nil [' ']).symm <|
    .apart (by simp [Adjoins, Juxtaposed]) <|
    .adjoined ⟨_, rfl, by decide⟩ (List.nil_append [' ']).symm <|
    .apart (by simp [Adjoins, Juxtaposed]) <|
    .adjoined ⟨_, rfl, by decide⟩ (List.append_nil [' ']).symm <|
    .apart (by simp [Adjoins]) .nil⟩
  rfl

theorem execute_writtenOut_group :
    let q := "a (b c) d".toList
    let text := "a |(b| c) |d".toList
    let group : Tree := .op .or (.term ['b']) (.term ['c'])
    (Session.ofText q).parse.1 = .ok (.op .or (.term ['a']) (.op .or group (.term ['d']))) ∧
      (Session.ofText q).parse.2.style = some .implicit ∧ layoutOfGroup.WrittenOut text ∧
      ∃ u, (Session.ofText text).parse.1 = .ok u ∧
        (Session.ofText text).parse.2.style = some .explicit ∧
        ∀ subject f, ((Matcher.ofText text).execute subject f).result =
          ((Matcher.ofText q).execute subject f).result := by
  intro q text group
  have htokens := tokenize_of_layout layoutOfGroup
  have hgroup : Derives .implicit .expression _ group :=
    .juxtaposed (.term (t := ⟨.term, ['b'], 3⟩) rfl) (.operand (.term (t := ⟨.term, ['c'], 5⟩) rfl))
  have hderives : Derives .implicit .expression layoutOfGroup.tokens
      (.op .or (.term ['a']) (.op .or group (.term ['d']))) :=
    .juxtaposed (.term rfl) (.juxtaposed (.group rfl hgroup rfl) (.operand (.term rfl)))
  have htree := parse_eq_ok_iff.2 ⟨_, htokens, .implicit, hderives⟩
  have hstyle := style_parse_of_derives htokens hderives
  obtain ⟨u, hu, hexplicit, hsame⟩ :=
    (execute_writtenOut htree hstyle).2 layoutOfGroup text writtenOut_layoutOfGroup
  exact ⟨htree, hstyle, writtenOut_layoutOfGroup, u, hu, hexplicit,
    fun subject f => (hsame subject f).2⟩

end FuzzyQuery
