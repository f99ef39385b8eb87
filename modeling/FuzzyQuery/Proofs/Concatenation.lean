import FuzzyQuery.Proofs.Layout
import FuzzyQuery.Proofs.Session

/-!
# Texts written one after the other

Behind a text in which every quoted term is closed the reader starts anew. If no word runs across
the seam, it reads the first text as if nothing followed, and the second one as if nothing stood
before it; only the places are moved. A text that is refused stays refused at the same character,
whatever is written behind it.
-/

namespace FuzzyQuery

open Piece

theorem OnlySpaces.append {t u : Text} (ht : OnlySpaces t) (hu : OnlySpaces u) :
    OnlySpaces (t ++ u) := by
  intro c hc
  obtain hc | hc := List.mem_append.1 hc
  · exact ht c hc
  · exact hu c hc

/-- Whether a word runs across hangs on the last character before the seam. -/
theorem NoWordAcross.of_append {before last after : Text}
    (h : NoWordAcross (before ++ last) after) : NoWordAcross last after := by
  intro c hc
  have hne : last ≠ [] := by
    rintro rfl
    cases hc
  refine h c ?_
  rwa [Option.mem_def, List.getLast?_append_of_ne_nil _ hne]

theorem Written.append_of_noWordAcross {kind : TokenKind} {value lexeme after more : Text}
    (h : Written true kind value lexeme after) (hcut : NoWordAcross (lexeme ++ after) more) :
    Written true kind value lexeme (after ++ more) := by
  cases h with
  | symbol hc => exact .symbol hc _
  | quoted hd => exact .quoted hd _
  | word hw stop =>
    refine .word hw ?_
    cases after with
    | cons c t => exact stop
    | nil =>
      obtain ⟨hne, hall⟩ := (Text.isWord_iff _).1 hw
      rw [List.append_nil] at hcut
      exact hcut _ (List.getLast?_eq_some_getLast hne) (hall _ (List.getLast_mem hne))

namespace Reader

theorem tokens_congr {r r' : Reader} (h : r.skipSpaces = r'.skipSpaces) : r.tokens = r'.tokens := by
  have hscan : r'.scan = r.scan := by simp only [scan, h]
  rcases hr : r.scan with ⟨_ | t, s⟩
  · rw [hr] at hscan
    rw [tokens_of_none (congrArg Prod.fst hr), tokens_of_none (congrArg Prod.fst hscan), hr, hscan]
  · rw [hr] at hscan
    rw [tokens_of_some (congrArg Prod.fst hr), tokens_of_some (congrArg Prod.fst hscan), hr, hscan]

/-- Spaces ahead are no part of any token. -/
theorem reads_spaces (seen : Text) {lead : Text} (rest : Text) (hl : OnlySpaces lead) :
    (⟨seen, lead ++ rest⟩ : Reader).Reads [] ⟨seen ++ lead, rest⟩ := by
  refine tokens_congr ?_
  obtain ⟨more, rest, rfl, hmore, hrest⟩ := exists_lead rest
  rw [← List.append_assoc, skipSpaces_append seen rest (hl.append hmore) hrest,
    skipSpaces_append (seen ++ lead) rest hmore hrest, List.append_assoc]

theorem Reads.behind {r r' : Reader} {ts : List Token} (h : r.Reads ts r') (before : Text) :
    (r.behind before).Reads (ts.map (Token.moved before.length)) (r'.behind before) := by
  unfold Reads at h ⊢
  rw [tokens_behind, tokens_behind, h, List.map_append]

/-- Closed pieces are read whatever stands behind them, if the last of them is not made longer. -/
theorem reads_of_lined (seen : Text) {lead rest : Text} {pieces : List Piece}
    (hl : OnlySpaces lead) (hp : Lined (seen ++ lead) pieces)
    (hclosed : ∀ p ∈ pieces, p.closed = true) (hcut : NoWordAcross (textOf pieces) rest) :
    (⟨seen, lead ++ (textOf pieces ++ rest)⟩ : Reader).Reads (pieces.map Piece.token)
      ⟨seen ++ lead ++ textOf pieces, rest⟩ := by
  induction pieces generalizing seen lead with
  | nil =>
    have hempty : textOf [] = [] := rfl
    rw [hempty, List.nil_append, List.append_nil]
    exact reads_spaces seen rest hl
  | cons p pieces ih =>
    obtain ⟨hstands, hrest⟩ := hp
    obtain ⟨hp, hpieces⟩ := List.forall_mem_cons.1 hclosed
    have hwritten := hstands.written
    rw [hp] at hwritten
    rw [textOf_cons] at hcut
    have hfound := Scans.found seen hl (hwritten.append_of_noWordAcross hcut)
    rw [← hstands.position, List.append_assoc p.gap] at hfound
    rw [← List.append_assoc] at hcut
    have hassoc : seen ++ lead ++ p.text = seen ++ lead ++ p.lexeme ++ p.gap :=
      (List.append_assoc (seen ++ lead) p.lexeme p.gap).symm
    rw [hassoc] at hrest
    have hmore := ih _ hstands.spaces hrest hpieces hcut.of_append
    have hall := (reads_of_scans hfound).trans hmore
    simp only [textOf_cons, List.append_assoc] at hall ⊢
    exact hall

end Reader

variable {a : Text}

/-- A closed text is read to its end when another text is written behind it. -/
theorem Layout.reads (l : Layout a) (hl : l.Closed) {b : Text} (hcut : NoWordAcross a b) :
    (Reader.ofText (a ++ b)).Reads l.tokens ⟨a, b⟩ := by
  obtain ⟨lead, pieces, rfl, hspaces, hlined⟩ := l
  have hreads := Reader.reads_of_lined [] hspaces hlined hl hcut.of_append
  rwa [List.nil_append, ← List.append_assoc] at hreads

/-- The tokens of the second text follow those of the first, and they end in the same way. -/
theorem Layout.tokens_append (l : Layout a) (hl : l.Closed) {b : Text} (hcut : NoWordAcross a b) :
    let rest := (Reader.ofText b).tokens
    (Reader.ofText (a ++ b)).tokens =
      (l.tokens ++ rest.1.map (Token.moved a.length), rest.2.behind a) := by
  intro rest
  have hreads := l.reads hl hcut
  have hbehind := (Reader.ofText b).tokens_behind a
  have hreader : (Reader.ofText b).behind a = ⟨a, b⟩ := by
    rw [Reader.ofText, Reader.behind, List.append_nil]
  rw [hreader] at hbehind
  rw [Reader.Reads, hbehind] at hreads
  exact hreads

theorem Layout.tokenize_append (l : Layout a) (hl : l.Closed) {b : Text}
    (hcut : NoWordAcross a b) :
    tokenize (a ++ b) = ((tokenize b).map fun tokens =>
      l.tokens ++ tokens.map (Token.moved a.length)).mapError (QueryError.behind a) := by
  unfold tokenize
  rw [l.tokens_append hl hcut]
  dsimp only
  rw [Reader.checkEnd_behind]
  cases (Reader.ofText b).tokens.2.checkEnd <;> rfl

theorem QueryError.ofSource_injective {source : Text} {fault fault' : Fault} {p p' : Nat}
    (h : ofSource source fault p = ofSource source fault' p') : fault = fault' ∧ p = p' := by
  obtain ⟨hfault, hposition, -⟩ := QueryError.mk.inj h
  exact ⟨hfault, Int.ofNat_inj.1 hposition⟩

theorem QueryError.behind_unexpectedCharacter (before source found : Text) (p : Nat) :
    (ofSource source (.unexpectedCharacter found) p).behind before =
      ofSource (before ++ source) (.unexpectedCharacter found) (before.length + p) := by
  have hplace : (p : Int) + before.length = (before.length + p : Nat) := by omega
  simp only [behind, ofSource, Option.map_some, hplace]
  rfl

/-- The second text is refused behind the first one where it is refused alone. -/
theorem Layout.refused_append_iff (l : Layout a) (hl : l.Closed) {b : Text}
    (hcut : NoWordAcross a b) {c : Char} {p : Nat} :
    tokenize (a ++ b) = .error (.ofSource (a ++ b) (.unexpectedCharacter [c]) (a.length + p)) ↔
      tokenize b = .error (.ofSource b (.unexpectedCharacter [c]) p) := by
  rw [l.tokenize_append hl hcut]
  cases hb : tokenize b with
  | ok tokens => exact ⟨nofun, nofun⟩
  | error e =>
    obtain ⟨start, d, t, -, -, rfl, -⟩ := tokenize_eq_error_iff.1 hb
    simp only [Except.map, Except.mapError, QueryError.behind_unexpectedCharacter,
      Except.error.injEq]
    constructor
    · intro h
      obtain ⟨hfault, hplace⟩ := QueryError.ofSource_injective h
      cases hfault
      rw [Nat.add_left_cancel hplace]
    · intro h
      obtain ⟨hfault, rfl⟩ := QueryError.ofSource_injective h
      cases hfault
      rfl

/-- What is refused at a character is refused there whatever follows. -/
theorem tokenize_append_of_refused {c : Char} {p : Nat}
    (h : tokenize a = .error (.ofSource a (.unexpectedCharacter [c]) p)) (b : Text) :
    tokenize (a ++ b) = .error (.ofSource (a ++ b) (.unexpectedCharacter [c]) p) := by
  obtain ⟨start, d, t, ha, hd, he, l, hl⟩ := tokenize_eq_error_iff.1 h
  obtain ⟨hfault, rfl⟩ := QueryError.ofSource_injective he
  cases hfault
  have hsplit : a ++ b = start ++ c :: (t ++ b) := by
    rw [ha, List.append_assoc, List.cons_append]
  rw [hsplit]
  exact tokenize_of_closed hl hd (t ++ b)

/-- Reading into tokens takes the joining of texts to the joining of token lists. An error of the
first text is the error of both together. When the first text has tokens and all its quoted terms
are closed, and no word runs across the seam, the tokens of both together are those of the first and
then those of the second, moved by the length of the first; and they are refused at a place behind
the seam exactly when the second text alone is refused at the corresponding place. -/
theorem tokenize_joined (a b : Text) :
    (∀ c p, tokenize a = .error (.ofSource a (.unexpectedCharacter [c]) p) →
      tokenize (a ++ b) = .error (.ofSource (a ++ b) (.unexpectedCharacter [c]) p)) ∧
    ∀ l : Layout a, l.Closed → NoWordAcross a b → tokenize a = .ok l.tokens ∧
      (∀ tokens, tokenize b = .ok tokens →
        tokenize (a ++ b) = .ok (l.tokens ++ tokens.map (Token.moved a.length))) ∧
      ∀ c p, tokenize (a ++ b) =
          .error (.ofSource (a ++ b) (.unexpectedCharacter [c]) (a.length + p)) ↔
        tokenize b = .error (.ofSource b (.unexpectedCharacter [c]) p) := by
  refine ⟨fun c p h => tokenize_append_of_refused h b, fun l hl hcut => ?_⟩
  refine ⟨tokenize_of_layout l, fun tokens hb => ?_, fun c p => l.refused_append_iff hl hcut⟩
  rw [l.tokenize_append hl hcut, hb]
  rfl

def layoutOfBackslash : Layout "ab \"\\\\\" ".toList where
  lead := []
  pieces := [⟨⟨.term, ['a', 'b'], 0⟩, ['a', 'b'], [' '], true⟩,
    ⟨⟨.term, ['\\'], 3⟩, ['"', '\\', '\\', '"'], [' '], true⟩]
  query_eq := rfl
  spaces := onlySpaces_nil
  lined := by
    have hspace : isWordChar ' ' = false := rfl
    refine ⟨⟨rfl, ?_, .word rfl ?_, onlySpaces_singleton⟩,
      ⟨rfl, ?_, .quoted (.escaped .nil) _, onlySpaces_singleton⟩, trivial⟩
    all_goals simp [NoWordAcross, Piece.text, hspace]

theorem tokenize_joined_backslash :
    let a := "ab \"\\\\\" ".toList
    let b := "c".toList
    let bad := "c | #".toList
    layoutOfBackslash.Closed ∧ NoWordAcross a b ∧ NoWordAcross a bad ∧
      tokenize (a ++ b) = .ok [⟨.term, ['a', 'b'], 0⟩, ⟨.term, ['\\'], 3⟩, ⟨.term, ['c'], 8⟩] ∧
      tokenize bad = .error (.ofSource bad (.unexpectedCharacter ['#']) 4) ∧
      tokenize (a ++ bad) = .error (.ofSource (a ++ bad) (.unexpectedCharacter ['#']) 12) ∧
      tokenize (bad ++ a) = .error (.ofSource (bad ++ a) (.unexpectedCharacter ['#']) 4) := by
  intro a b bad
  have hclosed : layoutOfBackslash.Closed := by simp [Layout.Closed, layoutOfBackslash]
  have hspace : isWordChar ' ' = false := rfl
  have hcut : NoWordAcross a b := by simp [NoWordAcross, a, hspace]
  have hcut' : NoWordAcross a bad := by simp [NoWordAcross, a, hspace]
  have hb : tokenize b = .ok [⟨.term, ['c'], 0⟩] := by decide +kernel
  have hbad : tokenize bad = .error (.ofSource bad (.unexpectedCharacter ['#']) 4) := by
    decide +kernel
  obtain ⟨-, hjoined⟩ := tokenize_joined a b
  obtain ⟨-, hjoined'⟩ := tokenize_joined a bad
  obtain ⟨-, htokens, -⟩ := hjoined layoutOfBackslash hclosed hcut
  obtain ⟨-, -, hrefused⟩ := hjoined' layoutOfBackslash hclosed hcut'
  exact ⟨hclosed, hcut, hcut', htokens _ hb, hbad, (hrefused '#' 4).2 hbad,
    (tokenize_joined bad a).1 '#' 4 hbad⟩

end FuzzyQuery
