import FuzzyQuery.Proofs.Quoted
import FuzzyQuery.Proofs.Runs
import FuzzyQuery.Token.Scan

/-!
# How one token is written

`Written` says which characters spell a token where given text follows, without reference to the
reader: a symbol, a word that is not cut short, or a quoted term. Only a term whose closing mark is
missing needs the end of the query behind it. `Scans` is the one step of a reader told with it,
and the two agree in both directions.
-/

namespace FuzzyQuery

def OnlySpaces (t : Text) : Prop := ∀ c ∈ t, c = ' '

def StartsNothing (c : Char) : Prop :=
  c ≠ ' ' ∧ c ≠ '"' ∧ isWordChar c = false ∧ c ∉ ['!', '&', '|', '(', ')']

/-- A token of this kind and value is written `lexeme` where `after` follows. The flag says whether
the lexeme is closed, which all of them are but a quoted term without its second mark. -/
inductive Written : Bool → (kind : TokenKind) → (value lexeme after : Text) → Prop
  | symbol {kind : TokenKind} {c : Char} (h : kind.symbol = [c]) (after : Text) :
      Written true kind [c] [c] after
  | word {w after : Text} (h : w.isWord = true)
      (stop : ∀ c ∈ after.head?, isWordChar c = false) : Written true .term w w after
  | quoted {body value : Text} (h : Quoted.Decodes body value) (after : Text) :
      Written true .term value ('"' :: body ++ ['"']) after
  | unclosed {body value : Text} (h : Quoted.Runs body value) :
      Written false .term value ('"' :: body) []

theorem onlySpaces_nil : OnlySpaces [] := fun _ hc => absurd hc List.not_mem_nil

theorem onlySpaces_singleton : OnlySpaces [' '] := fun _ hc => List.mem_singleton.1 hc

theorem onlySpaces_spaces (n : Nat) : OnlySpaces (Text.spaces n) :=
  fun _ hc => List.eq_of_mem_replicate hc

theorem isSpace_iff (c : Char) : isSpace c = true ↔ c = ' ' := beq_iff_eq

theorem mem_symbols_iff (c : Char) :
    c ∈ ['!', '&', '|', '(', ')'] ↔ ∃ kind, TokenKind.ofSymbol? c = some kind := by
  constructor
  · intro h
    simp only [List.mem_cons, List.not_mem_nil, or_false] at h
    rcases h with rfl | rfl | rfl | rfl | rfl
    · exact ⟨.not, rfl⟩
    · exact ⟨.and, rfl⟩
    · exact ⟨.or, rfl⟩
    · exact ⟨.opening, rfl⟩
    · exact ⟨.closing, rfl⟩
  · rintro ⟨kind, h⟩
    rw [TokenKind.ofSymbol?_eq_some_iff] at h
    have hc : kind.symbol.head? = some c := by rw [h]; rfl
    cases kind <;> cases hc <;> decide

/-- The characters that are tokens by themselves belong to no other lexeme. -/
theorem plain_of_symbol {kind : TokenKind} {c : Char} (h : kind.symbol = [c]) :
    c ≠ ' ' ∧ c ≠ '"' ∧ isWordChar c = false := by
  cases kind <;> cases h <;> decide

theorem ne_space_of_isWordChar {c : Char} (h : isWordChar c = true) : c ≠ ' ' := by
  rintro rfl
  cases h

theorem ne_quote_of_isWordChar {c : Char} (h : isWordChar c = true) : c ≠ '"' := by
  rintro rfl
  cases h

theorem StartsNothing.read? {c : Char} (h : StartsNothing c) (t : Text) :
    Lexeme.read? c t = none := by
  obtain ⟨_, hq, hw, hs⟩ := h
  have hk : TokenKind.ofSymbol? c = none := by
    rw [mem_symbols_iff] at hs
    exact Option.eq_none_iff_forall_ne_some.2 fun kind hk => hs ⟨kind, hk⟩
  rw [Lexeme.read?, if_neg hq, if_neg (by simp [hw]), hk, Option.map_none]

namespace Written

variable {closed : Bool} {kind : TokenKind} {value lexeme after : Text}

/-- The characters that spell a token are read as that token. -/
theorem read? (h : Written closed kind value lexeme after) :
    ∃ c t, lexeme = c :: t ∧ c ≠ ' ' ∧
      Lexeme.read? c (t ++ after) = some ⟨kind, value, lexeme.length⟩ := by
  cases h with
  | @symbol kind c hc after =>
    obtain ⟨hs, hq, hw⟩ := plain_of_symbol hc
    have hk : TokenKind.ofSymbol? c = some kind := TokenKind.ofSymbol?_eq_some_iff.2 hc
    refine ⟨c, [], rfl, hs, ?_⟩
    rw [Lexeme.read?, if_neg hq, if_neg (Bool.eq_false_iff.1 hw), hk]
    rfl
  | @word w after hw stop =>
    obtain ⟨hne, hall⟩ := (Text.isWord_iff _).1 hw
    cases value with
    | nil => exact absurd rfl hne
    | cons c t =>
      have hc : isWordChar c = true := hall c List.mem_cons_self
      have run : (c :: (t ++ after)).takeWhile isWordChar = c :: t := by
        rw [← List.cons_append, takeWhile_append_of_stop hall stop]
      refine ⟨c, t, rfl, ne_space_of_isWordChar hc, ?_⟩
      rw [Lexeme.read?, if_neg (ne_quote_of_isWordChar hc), if_pos hc, run]
  | @quoted body value hd after =>
    refine ⟨'"', body ++ ['"'], rfl, by decide, ?_⟩
    rw [Lexeme.read?, if_pos rfl, List.append_assoc, List.singleton_append,
      Quoted.read_closed hd]
    simp
  | @unclosed body value hr =>
    refine ⟨'"', body, rfl, by decide, ?_⟩
    rw [Lexeme.read?, if_pos rfl, List.append_nil, Quoted.read_unclosed hr, List.length_cons]

theorem ne_nil (h : Written closed kind value lexeme after) : lexeme ≠ [] := by
  obtain ⟨c, t, rfl, _⟩ := h.read?
  exact List.cons_ne_nil c t

/-- More text may follow a closed lexeme, unless it would make a word longer. -/
theorem append {more : Text} (h : Written true kind value lexeme after)
    (stop : ∀ c ∈ more.head?, isWordChar c = false) :
    Written true kind value lexeme (after ++ more) := by
  cases h with
  | symbol hc => exact .symbol hc _
  | word hw hstop =>
    refine .word hw ?_
    cases after with
    | nil => exact stop
    | cons c t => exact hstop
  | quoted hd => exact .quoted hd _

/-- What follows a lexeme may be cut short. -/
theorem of_append {more : Text} (h : Written closed kind value lexeme (after ++ more)) :
    Written closed kind value lexeme after := by
  generalize hrest : after ++ more = rest at h
  cases h with
  | symbol hc => exact .symbol hc _
  | word hw stop =>
    refine .word hw ?_
    cases after with
    | nil => simp
    | cons c t => rw [← hrest] at stop; exact stop
  | quoted hd => exact .quoted hd _
  | unclosed hr =>
    obtain ⟨rfl, _⟩ := List.append_eq_nil_iff.1 hrest
    exact .unclosed hr

theorem closed_of_ne_nil (h : Written closed kind value lexeme after) (hne : after ≠ []) :
    closed = true := by
  cases h with
  | unclosed => exact absurd rfl hne
  | symbol | word | quoted => rfl

end Written

theorem Lexeme.written_of_read? {c : Char} {t : Text} {x : Lexeme} (h : read? c t = some x) :
    ∃ closed lexeme after, c :: t = lexeme ++ after ∧
      Written closed x.kind x.value lexeme after := by
  unfold read? at h
  by_cases hq : c = '"'
  · subst hq
    rw [if_pos rfl] at h
    cases h
    rcases Quoted.read_cases t with ⟨body, after, ht, hd, _⟩ | ⟨hr, _⟩
    · exact ⟨true, '"' :: body ++ ['"'], after, by simp [ht], .quoted hd after⟩
    · exact ⟨false, '"' :: t, [], by simp, .unclosed hr⟩
  · rw [if_neg hq] at h
    by_cases hc : isWordChar c = true
    · rw [if_pos hc] at h
      cases h
      refine ⟨true, (c :: t).takeWhile isWordChar, (c :: t).dropWhile isWordChar,
        List.takeWhile_append_dropWhile.symm, .word ?_ (stop_dropWhile isWordChar _)⟩
      refine (Text.isWord_iff _).2 ⟨by simp [hc], fun d hd => ?_⟩
      exact mem_takeWhile hd
    · rw [if_neg hc] at h
      obtain ⟨kind, hk, rfl⟩ := Option.map_eq_some_iff.1 h
      exact ⟨true, [c], t, rfl, .symbol (TokenKind.ofSymbol?_eq_some_iff.1 hk) t⟩

theorem Lexeme.startsNothing_of_read? {c : Char} {t : Text} (h : read? c t = none)
    (hs : c ≠ ' ') : StartsNothing c := by
  unfold read? at h
  by_cases hq : c = '"'
  · rw [if_pos hq] at h
    cases h
  · rw [if_neg hq] at h
    by_cases hc : isWordChar c = true
    · rw [if_pos hc] at h
      cases h
    · rw [if_neg hc] at h
      refine ⟨hs, hq, by simpa using hc, fun hmem => ?_⟩
      obtain ⟨kind, hk⟩ := (mem_symbols_iff c).1 hmem
      rw [hk] at h
      cases h

/-- One step of a reader: the spaces ahead end the query, or stand before a character that is
refused, or stand before a lexeme. -/
inductive Scans : Reader → Option Token → Reader → Prop
  | ended (seen : Text) {lead : Text} (hl : OnlySpaces lead) :
      Scans ⟨seen, lead⟩ none ⟨seen ++ lead, []⟩
  | refused (seen : Text) {lead : Text} {c : Char} (t : Text) (hl : OnlySpaces lead)
      (hc : StartsNothing c) : Scans ⟨seen, lead ++ c :: t⟩ none ⟨seen ++ lead, c :: t⟩
  | found (seen : Text) {lead value lexeme after : Text} {closed : Bool} {kind : TokenKind}
      (hl : OnlySpaces lead) (hw : Written closed kind value lexeme after) :
      Scans ⟨seen, lead ++ (lexeme ++ after)⟩ (some ⟨kind, value, (seen ++ lead).length⟩)
        ⟨seen ++ lead ++ lexeme, after⟩

/-- One step moves the reader forward, and over the token that it finds. -/
theorem Scans.positions {r r' : Reader} {found : Option Token} (h : Scans r found r') :
    r.position ≤ r'.position ∧ ∀ t ∈ found, r.position ≤ t.pos ∧ t.pos < r'.position := by
  cases h with
  | ended | refused => simp [Reader.position]
  | found seen hl hw =>
    have hlexeme := List.length_pos_iff.2 hw.ne_nil
    simp only [Reader.position, List.length_append, Option.mem_def, Option.some.injEq, forall_eq']
    omega

namespace Reader

theorem skipSpaces_append (seen : Text) {lead : Text} (rest : Text) (hl : OnlySpaces lead)
    (hr : ∀ c ∈ rest.head?, c ≠ ' ') :
    (⟨seen, lead ++ rest⟩ : Reader).skipSpaces = ⟨seen ++ lead, rest⟩ := by
  have run : (lead ++ rest).takeWhile isSpace = lead :=
    takeWhile_append_of_stop (fun c hc => (isSpace_iff c).2 (hl c hc)) fun c hc =>
      Bool.eq_false_iff.2 fun h => hr c hc ((isSpace_iff c).1 h)
  simp [skipSpaces, readWhile, advance, run]

theorem exists_lead (t : Text) :
    ∃ lead rest, t = lead ++ rest ∧ OnlySpaces lead ∧ ∀ c ∈ rest.head?, c ≠ ' ' := by
  refine ⟨t.takeWhile isSpace, t.dropWhile isSpace, List.takeWhile_append_dropWhile.symm,
    fun c hc => (isSpace_iff c).1 (mem_takeWhile hc), ?_⟩
  intro c hc h
  have hs := stop_dropWhile isSpace t c hc
  rw [(isSpace_iff c).2 h] at hs
  cases hs

theorem scan_of_scans {r r' : Reader} {t : Option Token} (h : Scans r t r') :
    r.scan = (t, r') := by
  cases h with
  | @ended seen lead hl =>
    have hs := skipSpaces_append seen [] hl (by simp)
    rw [List.append_nil] at hs
    simp only [scan, hs]
  | @refused seen lead c t hl hc =>
    have hs := skipSpaces_append seen (c :: t) hl (by simpa using hc.1)
    simp only [scan, hs, hc.read? t]
  | @found seen lead value lexeme after closed kind hl hw =>
    obtain ⟨c, t, rfl, hc, hx⟩ := hw.read?
    have hs := skipSpaces_append seen (c :: (t ++ after)) hl (by simpa using hc)
    rw [List.cons_append]
    simp only [scan, hs, hx]
    simp [advance, position]

theorem scans_scan (r : Reader) : Scans r r.scan.1 r.scan.2 := by
  obtain ⟨seen, rest⟩ := r
  obtain ⟨lead, rest, rfl, hl, hr⟩ := exists_lead rest
  have hs := skipSpaces_append seen rest hl hr
  cases rest with
  | nil =>
    have h : Scans ⟨seen, lead⟩ none ⟨seen ++ lead, []⟩ := .ended seen hl
    rw [List.append_nil, scan_of_scans h]
    exact h
  | cons c t =>
    cases hx : Lexeme.read? c t with
    | none =>
      have h : Scans ⟨seen, lead ++ c :: t⟩ none ⟨seen ++ lead, c :: t⟩ :=
        .refused seen t hl (Lexeme.startsNothing_of_read? hx (hr c rfl))
      rw [scan_of_scans h]
      exact h
    | some x =>
      obtain ⟨closed, lexeme, after, hrest, hw⟩ := Lexeme.written_of_read? hx
      rw [hrest]
      have h := Scans.found seen hl hw
      rw [scan_of_scans h]
      exact h

/-- The reader takes the steps that the spelling of tokens allows, and no others. -/
theorem scan_eq_iff {r r' : Reader} {t : Option Token} : r.scan = (t, r') ↔ Scans r t r' := by
  constructor
  · intro h
    simpa only [h] using scans_scan r
  · exact scan_of_scans

theorem tokens_of_scans_none {r r' : Reader} (h : Scans r none r') : r.tokens = ([], r') := by
  have hs := scan_of_scans h
  rw [tokens_of_none (by rw [hs]), hs]

theorem tokens_of_scans_some {r r' : Reader} {t : Token} (h : Scans r (some t) r') :
    r.tokens = (t :: r'.tokens.1, r'.tokens.2) := by
  have hs := scan_of_scans h
  rw [tokens_of_some (t := t) (by rw [hs]), hs]

/-- The tokens stand between the place of the reader and the place where it stops, each one behind
the one before it. -/
theorem pos_tokens (r : Reader) :
    (∀ t ∈ r.tokens.1, r.position ≤ t.pos ∧ t.pos < r.tokens.2.position) ∧
      r.tokens.1.Pairwise (·.pos < ·.pos) ∧ r.position ≤ r.tokens.2.position := by
  fun_induction tokens r with
  | case1 r r' h =>
    exact ⟨fun t ht => absurd ht List.not_mem_nil, .nil, (scan_eq_iff.1 h).positions.1⟩
  | case2 r t r' h _ more ih =>
    obtain ⟨hbetween, hpairwise, hstop⟩ := ih
    have hpos := (scan_eq_iff.1 h).positions.2 t rfl
    refine ⟨List.forall_mem_cons.2 ⟨?_, fun u hu => ?_⟩, .cons (fun u hu => ?_) hpairwise, ?_⟩
    · exact ⟨hpos.1, Nat.lt_of_lt_of_le hpos.2 hstop⟩
    · have hu := hbetween u hu
      exact ⟨by omega, hu.2⟩
    · exact Nat.lt_of_lt_of_le hpos.2 (hbetween u hu).1
    · exact Nat.le_trans (Nat.le_trans hpos.1 (Nat.le_of_lt hpos.2)) hstop

/-- The next tokens of the one reader are those in the list, and then it stands like the other. -/
def Reads (r : Reader) (tokens : List Token) (r' : Reader) : Prop :=
  r.tokens = (tokens ++ r'.tokens.1, r'.tokens.2)

theorem Reads.trans {r₁ r₂ r₃ : Reader} {ts us : List Token} (h : r₁.Reads ts r₂)
    (h' : r₂.Reads us r₃) : r₁.Reads (ts ++ us) r₃ := by
  unfold Reads at h h' ⊢
  rw [h, h', List.append_assoc]

theorem reads_of_scans {r r' : Reader} {t : Token} (h : Scans r (some t) r') :
    r.Reads [t] r' := tokens_of_scans_some h

theorem tokens_of_reads {r : Reader} {tokens : List Token} {seen : Text}
    (h : r.Reads tokens ⟨seen, []⟩) : r.tokens = (tokens, ⟨seen, []⟩) := by
  have hend := tokens_of_scans_none (.ended seen onlySpaces_nil)
  unfold Reads at h
  rw [h, hend, List.append_nil, List.append_nil]

end Reader

end FuzzyQuery
