import FuzzyQuery.Proofs.Lexeme
import Mathlib.Data.List.Basic

/-!
# Layouts

A layout divides a whole query into lexemes and the spaces between them, so that no character is
skipped or used twice. A query has tokens exactly when it has a layout, and then its tokens are
those of the layout. It is refused at a character exactly when the text before this character has
a layout in which every quoted term is closed, and no token starts with the character.
-/

namespace FuzzyQuery

structure Piece where
  token : Token
  lexeme : Text
  gap : Text
  closed : Bool

/-- No word runs across the place between the two texts. -/
def NoWordAcross (before after : Text) : Prop :=
  ∀ c ∈ before.getLast?, isWordChar c = true → ∀ d ∈ after.head?, isWordChar d = false

namespace Piece

def text (p : Piece) : Text := p.lexeme ++ p.gap

def textOf (pieces : List Piece) : Text := pieces.flatMap text

/-- The piece stands between the two texts. Its token starts there, and if it is a word it is a
maximal one. -/
structure Stands (before : Text) (p : Piece) (after : Text) : Prop where
  position : p.token.pos = before.length
  whole : NoWordAcross before p.lexeme
  written : Written p.closed p.token.kind p.token.value p.lexeme (p.gap ++ after)
  spaces : OnlySpaces p.gap

def Lined (before : Text) : List Piece → Prop
  | [] => True
  | p :: pieces => p.Stands before (textOf pieces) ∧ Lined (before ++ p.text) pieces

theorem textOf_cons (p : Piece) (pieces : List Piece) :
    textOf (p :: pieces) = p.lexeme ++ (p.gap ++ textOf pieces) := by
  simp only [textOf, text, List.flatMap_cons, List.append_assoc]

end Piece

open Piece

structure Layout (query : Text) where
  lead : Text
  pieces : List Piece
  query_eq : query = lead ++ textOf pieces
  spaces : OnlySpaces lead
  lined : Lined lead pieces

namespace Layout

variable {query : Text}

def tokens (l : Layout query) : List Token := l.pieces.map Piece.token

def Closed (l : Layout query) : Prop := ∀ p ∈ l.pieces, p.closed = true

end Layout

/-- Where the tokens end: at the end of the text, or at a character that is refused, before which
every quoted term is closed. -/
def Stops (pieces : List Piece) (tail : Text) : Prop :=
  tail = [] ∨ (∀ p ∈ pieces, p.closed = true) ∧ ∃ c t, tail = c :: t ∧ StartsNothing c

theorem Stops.written {p : Piece} {pieces : List Piece} {before tail : Text}
    (h : Stops (p :: pieces) tail) (hp : p.Stands before (textOf pieces)) :
    Written p.closed p.token.kind p.token.value p.lexeme (p.gap ++ (textOf pieces ++ tail)) := by
  rcases h with rfl | ⟨hall, c, t, rfl, hc⟩
  · rw [List.append_nil]
    exact hp.written
  · have hclosed : p.closed = true := hall p List.mem_cons_self
    have hw := hp.written
    rw [hclosed] at hw ⊢
    rw [← List.append_assoc]
    exact hw.append (by simpa using hc.2.2.1)

theorem Stops.tail {p : Piece} {pieces : List Piece} {tail : Text}
    (h : Stops (p :: pieces) tail) : Stops pieces tail := by
  rcases h with h | ⟨hall, h⟩
  · exact Or.inl h
  · exact Or.inr ⟨fun q hq => hall q (List.mem_cons_of_mem p hq), h⟩

/-- The pieces of a text are read one after the other, up to where they stop. -/
theorem Reader.tokens_of_lined (seen : Text) {lead tail : Text} {pieces : List Piece}
    (hl : OnlySpaces lead) (hp : Lined (seen ++ lead) pieces) (hs : Stops pieces tail) :
    (⟨seen, lead ++ (textOf pieces ++ tail)⟩ : Reader).tokens =
      (pieces.map Piece.token, ⟨seen ++ lead ++ textOf pieces, tail⟩) := by
  induction pieces generalizing seen lead with
  | nil =>
    have empty : textOf [] = [] := rfl
    rw [empty, List.nil_append, List.append_nil]
    rcases hs with rfl | ⟨_, c, t, rfl, hc⟩
    · rw [List.append_nil]
      exact tokens_of_scans_none (.ended seen hl)
    · exact tokens_of_scans_none (.refused seen t hl hc)
  | cons p pieces ih =>
    obtain ⟨hstands, hrest⟩ := hp
    have hfound := Scans.found seen hl (hs.written hstands)
    have hassoc : seen ++ lead ++ p.text = seen ++ lead ++ p.lexeme ++ p.gap :=
      (List.append_assoc (seen ++ lead) p.lexeme p.gap).symm
    rw [hassoc] at hrest
    have hmore := ih _ hstands.spaces hrest hs.tail
    rw [← hstands.position] at hfound
    simp only [textOf_cons, List.append_assoc] at hfound hmore ⊢
    rw [tokens_of_scans_some hfound, hmore]
    rfl

theorem NoWordAcross.found {seen lead lexeme after : Text}
    (h : NoWordAcross seen (lead ++ (lexeme ++ after))) (hl : OnlySpaces lead)
    (hne : lexeme ≠ []) : NoWordAcross (seen ++ lead) lexeme := by
  intro c hc hword d hd
  by_cases hlead : lead = []
  · subst hlead
    obtain ⟨e, t, rfl⟩ := List.exists_cons_of_ne_nil hne
    rw [List.append_nil] at hc
    exact h c hc hword d hd
  · rw [Option.mem_def, List.getLast?_append_of_ne_nil _ hlead] at hc
    exact absurd (hl c (List.mem_of_getLast? hc)) (ne_space_of_isWordChar hword)

theorem Written.noWordAcross {closed : Bool} {kind : TokenKind} {value lexeme after : Text}
    (h : Written closed kind value lexeme after) (before : Text) :
    NoWordAcross (before ++ lexeme) after := by
  intro c hc hword
  rw [Option.mem_def, List.getLast?_append_of_ne_nil _ h.ne_nil] at hc
  cases h with
  | @symbol kind c hk =>
    cases hc
    obtain ⟨_, _, hplain⟩ := plain_of_symbol hk
    exact absurd hword (Bool.eq_false_iff.1 hplain)
  | word hw stop => exact stop
  | quoted hd after =>
    rw [List.getLast?_concat] at hc
    cases hc
    exact absurd rfl (ne_quote_of_isWordChar hword)
  | unclosed hr => simp

/-- What a reader passes on its way to the last token is lined up in pieces. -/
theorem Reader.exists_lined (r : Reader) (hcut : NoWordAcross r.seen r.rest) :
    ∃ lead pieces, OnlySpaces lead ∧ Lined (r.seen ++ lead) pieces ∧
      Stops pieces r.tokens.2.rest ∧
      r.rest = lead ++ (textOf pieces ++ r.tokens.2.rest) := by
  fun_induction Reader.tokens r with
  | case1 r r' h =>
    cases scan_eq_iff.1 h with
    | ended _ hl => exact ⟨_, [], hl, trivial, Or.inl rfl, by simp [textOf]⟩
    | refused _ _ hl hc =>
      exact ⟨_, [], hl, trivial, Or.inr ⟨by simp, _, _, rfl, hc⟩, by simp [textOf]⟩
  | case2 r t r' h _ more ih =>
    cases scan_eq_iff.1 h with
    | @found seen lead value lexeme after closed kind hl hw =>
      obtain ⟨gap, pieces, hgap, hlined, hstops, hafter⟩ := ih (hw.noWordAcross _)
      dsimp only at hafter hlined hcut
      let p : Piece := ⟨⟨kind, value, (seen ++ lead).length⟩, lexeme, gap, closed⟩
      have hstands : p.Stands (seen ++ lead) (textOf pieces) := by
        refine ⟨rfl, hcut.found hl hw.ne_nil, ?_, hgap⟩
        rw [hafter, ← List.append_assoc] at hw
        exact hw.of_append
      have hstops' : Stops (p :: pieces) more.2.rest := by
        rcases hstops with hend | ⟨hall, c, s, hs, hc⟩
        · exact Or.inl hend
        · have hne : after ≠ [] := by rw [hafter, hs]; simp
          refine Or.inr ⟨?_, c, s, hs, hc⟩
          exact List.forall_mem_cons.2 ⟨hw.closed_of_ne_nil hne, hall⟩
      refine ⟨lead, p :: pieces, hl, ⟨hstands, ?_⟩, hstops', ?_⟩
      · simpa only [Piece.text, List.append_assoc, p] using hlined
      · simp only [textOf_cons, List.append_assoc, p]
        exact congrArg (fun t => lead ++ (lexeme ++ t)) hafter

/-- Every query is laid out up to the place where its tokens end. -/
theorem exists_layout (q : Text) :
    ∃ (start tail : Text) (l : Layout start), q = start ++ tail ∧ Stops l.pieces tail ∧
      (Reader.ofText q).tokens = (l.tokens, ⟨start, tail⟩) := by
  obtain ⟨lead, pieces, hl, hlined, hstops, hrest⟩ :=
    (Reader.ofText q).exists_lined (fun c hc => by simp [Reader.ofText] at hc)
  generalize (Reader.ofText q).tokens.2.rest = tail at hstops hrest
  have hq : q = lead ++ (textOf pieces ++ tail) := hrest
  let l : Layout (lead ++ textOf pieces) := ⟨lead, pieces, rfl, hl, hlined⟩
  refine ⟨lead ++ textOf pieces, tail, l, by rw [hq, List.append_assoc], hstops, ?_⟩
  rw [hq]
  exact Reader.tokens_of_lined [] hl hlined hstops

theorem Layout.tokens_ofText {start : Text} (l : Layout start) (tail : Text)
    (h : Stops l.pieces tail) :
    (Reader.ofText (start ++ tail)).tokens = (l.tokens, ⟨start, tail⟩) := by
  obtain ⟨lead, pieces, rfl, hl, hlined⟩ := l
  rw [List.append_assoc]
  exact Reader.tokens_of_lined [] hl hlined h

theorem tokenize_of_ended {q : Text} {tokens : List Token} {seen : Text}
    (h : (Reader.ofText q).tokens = (tokens, ⟨seen, []⟩)) : tokenize q = .ok tokens := by
  simp [tokenize, h, Reader.checkEnd, Reader.atEnd, Except.map]

theorem tokenize_of_refused {q : Text} {tokens : List Token} {seen t : Text} {c : Char}
    (h : (Reader.ofText q).tokens = (tokens, ⟨seen, c :: t⟩)) :
    tokenize q = .error (.ofSource q (.unexpectedCharacter [c]) seen.length) := by
  have hsource : seen ++ c :: t = q := by
    have hs := Reader.source_tokens (Reader.ofText q)
    rw [h, Reader.source_ofText] at hs
    exact hs
  simp [tokenize, h, Reader.checkEnd, Reader.atEnd, Except.map, Reader.unexpected, Reader.fail,
    Reader.peek, Reader.position, Reader.source, hsource]

theorem tokenize_of_layout {q : Text} (l : Layout q) : tokenize q = .ok l.tokens := by
  have h := l.tokens_ofText [] (Or.inl rfl)
  rw [List.append_nil] at h
  exact tokenize_of_ended h

theorem tokenize_of_closed {start : Text} {l : Layout start} (h : l.Closed) {c : Char}
    (hc : StartsNothing c) (t : Text) : tokenize (start ++ c :: t) =
      .error (.ofSource (start ++ c :: t) (.unexpectedCharacter [c]) start.length) :=
  tokenize_of_refused (l.tokens_ofText (c :: t) (Or.inr ⟨h, c, t, rfl, hc⟩))

theorem tokenize_eq_ok_iff {q : Text} {tokens : List Token} :
    tokenize q = .ok tokens ↔ ∃ l : Layout q, l.tokens = tokens := by
  constructor
  · intro h
    obtain ⟨start, tail, l, hq, hstops, htokens⟩ := exists_layout q
    rcases hstops with rfl | ⟨_, c, t, rfl, _⟩
    · rw [tokenize_of_ended htokens] at h
      rw [List.append_nil] at hq
      subst hq
      exact ⟨l, Except.ok.inj h⟩
    · rw [tokenize_of_refused htokens] at h
      cases h
  · rintro ⟨l, rfl⟩
    exact tokenize_of_layout l

theorem tokenize_eq_error_iff {q : Text} {e : QueryError} :
    tokenize q = .error e ↔ ∃ start c t, q = start ++ c :: t ∧ StartsNothing c ∧
      e = .ofSource q (.unexpectedCharacter [c]) start.length ∧
      ∃ l : Layout start, l.Closed := by
  constructor
  · intro h
    obtain ⟨start, tail, l, hq, hstops, htokens⟩ := exists_layout q
    rcases hstops with rfl | ⟨hall, c, t, rfl, hc⟩
    · rw [tokenize_of_ended htokens] at h
      cases h
    · rw [tokenize_of_refused htokens] at h
      exact ⟨start, c, t, hq, hc, (Except.error.inj h).symm, l, hall⟩
  · rintro ⟨start, c, t, rfl, hc, rfl, l, hl⟩
    exact tokenize_of_closed hl hc t

/-- Reading a query into tokens loses nothing and makes nothing up: it succeeds with the tokens of
a layout of the query, and it fails at a character that starts nothing, up to which the query has a
layout without open quotes. -/
theorem tokenize_iff_layout (q : Text) :
    (∀ tokens, tokenize q = .ok tokens ↔ ∃ l : Layout q, l.tokens = tokens) ∧
    (∀ e, tokenize q = .error e ↔ ∃ c p, e = .ofSource q (.unexpectedCharacter [c]) p ∧
      q[p]? = some c ∧ StartsNothing c ∧ ∃ l : Layout (q.take p), l.Closed) := by
  refine ⟨fun tokens => tokenize_eq_ok_iff, fun e => tokenize_eq_error_iff.trans ⟨?_, ?_⟩⟩
  · rintro ⟨start, c, t, rfl, hc, rfl, hl⟩
    refine ⟨c, start.length, rfl, by simp, hc, ?_⟩
    rwa [List.take_left]
  · rintro ⟨c, p, rfl, hp, hc, hl⟩
    obtain ⟨hlt, hget⟩ := List.getElem?_eq_some_iff.1 hp
    refine ⟨q.take p, c, q.drop (p + 1), ?_, hc, ?_, hl⟩
    · rw [← hget, ← List.drop_eq_getElem_cons hlt, List.take_append_drop]
    · rw [List.length_take_of_le (Nat.le_of_lt hlt)]

end FuzzyQuery
