import FuzzyQuery.Proofs.Layout

/-!
# Spelling out tokens

A token can be written as a symbol, as a word, or as any text in quotation marks. When literals are
written one after the other, with as many spaces between them as one likes, reading gives them back,
each at the place where it was written. Only two words must be kept apart.
-/

namespace FuzzyQuery

namespace Quoted

def backslashed (c : Char) (t : Text) : Text :=
  t.flatMap fun d => if d = c then ['\\', d] else [d]

/-- The backslashes that protect the quotation marks are not doubled. -/
theorem backslashed_backslashed (t : Text) :
    backslashed '"' (backslashed '\\' t) = escape t := by
  induction t with
  | nil => rfl
  | cons c t ih =>
    have hcons : ∀ mark, backslashed mark (c :: t) =
        (if c = mark then ['\\', c] else [c]) ++ backslashed mark t := fun _ => List.flatMap_cons
    have happend : ∀ u, backslashed '"' (u ++ backslashed '\\' t) =
        backslashed '"' u ++ escape t := fun u => by rw [← ih]; exact List.flatMap_append
    rw [hcons, happend]
    by_cases hb : c = '\\'
    · subst hb
      rfl
    · by_cases hq : c = '"'
      · subst hq
        rfl
      · simp [backslashed, escape, hb, hq]

end Quoted

/-- All tokens but terms are written as one character. -/
theorem TokenKind.exists_symbol {kind : TokenKind} (h : kind ≠ .term) :
    ∃ c, kind.symbol = [c] := by
  cases kind with
  | term => exact absurd rfl h
  | not => exact ⟨'!', rfl⟩
  | and => exact ⟨'&', rfl⟩
  | or => exact ⟨'|', rfl⟩
  | opening => exact ⟨'(', rfl⟩
  | closing => exact ⟨')', rfl⟩

/-- One way to write a token. -/
inductive Literal where
  | symbol (kind : TokenKind) (h : kind ≠ .term)
  | word (value : Text) (h : value.isWord = true)
  | quoted (value : Text)

namespace Literal

def kind : Literal → TokenKind
  | symbol kind _ => kind
  | word _ _ | quoted _ => .term

def value : Literal → Text
  | symbol kind _ => kind.symbol
  | word value _ | quoted value => value

/-- How a literal is written. In quotation marks every backslash is escaped first, and then every
quotation mark. -/
def text : Literal → Text
  | symbol kind _ => kind.symbol
  | word value _ => value
  | quoted value => '"' :: Quoted.backslashed '"' (Quoted.backslashed '\\' value) ++ ['"']

def IsWord : Literal → Prop
  | word _ _ => True
  | symbol _ _ | quoted _ => False

def token (l : Literal) (pos : Nat) : Token := ⟨l.kind, l.value, pos⟩

/-- A literal spells its token, whatever follows; only a word must not be made longer. -/
theorem written (l : Literal) {after : Text}
    (stop : l.IsWord → ∀ c ∈ after.head?, isWordChar c = false) :
    Written true l.kind l.value l.text after := by
  cases l with
  | symbol kind h =>
    obtain ⟨c, hc⟩ := TokenKind.exists_symbol h
    have hw := Written.symbol hc after
    rwa [← hc] at hw
  | word value h => exact .word h (stop trivial)
  | quoted value =>
    have hw := Written.quoted (Quoted.decodes_escape value) after
    rwa [← Quoted.backslashed_backslashed] at hw

/-- Only a word starts with a letter or a digit. -/
theorem stops_word (l : Literal) (h : ¬ l.IsWord) (after : Text) :
    ∀ c ∈ (l.text ++ after).head?, isWordChar c = false := by
  cases l with
  | symbol kind hkind =>
    obtain ⟨c, hc⟩ := TokenKind.exists_symbol hkind
    obtain ⟨-, -, hplain⟩ := plain_of_symbol hc
    rw [text, hc]
    simpa using hplain
  | word => exact absurd trivial h
  | quoted value =>
    rintro _ ⟨⟩
    rfl

def write (items : List (Literal × Nat)) : Text :=
  items.flatMap fun x => x.1.text ++ Text.spaces x.2

def tokensAfter (before : Text) (items : List (Literal × Nat)) : List Token :=
  items.mapIdx fun i x => x.1.token (before ++ write (items.take i)).length

/-- Two words that follow each other have a space between them. -/
def Apart (x y : Literal × Nat) : Prop := x.1.IsWord → y.1.IsWord → 0 < x.2

variable {x : Literal × Nat} {items : List (Literal × Nat)}

theorem write_nil : write [] = [] := rfl

theorem write_cons (x : Literal × Nat) (items : List (Literal × Nat)) :
    write (x :: items) = x.1.text ++ (Text.spaces x.2 ++ write items) := by
  rw [write, List.flatMap_cons, List.append_assoc]
  rfl

theorem tokensAfter_cons (before : Text) (x : Literal × Nat) (items : List (Literal × Nat)) :
    tokensAfter before (x :: items) = x.1.token before.length ::
      tokensAfter (before ++ x.1.text ++ Text.spaces x.2) items := by
  simp only [tokensAfter, List.mapIdx_cons, List.take_zero, List.take_succ_cons, write_nil,
    write_cons, List.append_nil, List.append_assoc]

/-- Where literals are kept apart, a word ends with its last character. -/
theorem stop_of_isChain (h : (x :: items).IsChain Apart) (hx : x.1.IsWord) :
    ∀ c ∈ (Text.spaces x.2 ++ write items).head?, isWordChar c = false := by
  obtain ⟨l, n⟩ := x
  cases n with
  | succ n =>
    rintro _ ⟨⟩
    rfl
  | zero =>
    cases items with
    | nil => rintro _ ⟨⟩
    | cons y items =>
      obtain ⟨hparted, -⟩ := List.isChain_cons_cons.1 h
      have hy : ¬ y.1.IsWord := fun hy => absurd (hparted hx hy) (Nat.lt_irrefl 0)
      have hnone : Text.spaces 0 = [] := rfl
      rw [hnone, List.nil_append, write_cons]
      exact y.1.stops_word hy _

/-- Literals are read one after the other, to the last of them. -/
theorem tokens_write (seen : Text) (lead : Nat) (h : items.IsChain Apart) :
    (⟨seen, Text.spaces lead ++ write items⟩ : Reader).tokens =
      (tokensAfter (seen ++ Text.spaces lead) items,
        ⟨seen ++ Text.spaces lead ++ write items, []⟩) := by
  induction items generalizing seen lead with
  | nil =>
    rw [write_nil, List.append_nil, List.append_nil]
    exact Reader.tokens_of_scans_none (.ended seen (onlySpaces_spaces lead))
  | cons x items ih =>
    have hw := x.1.written (stop_of_isChain h)
    have hfound := Scans.found seen (onlySpaces_spaces lead) hw
    have hrest := ih (seen ++ Text.spaces lead ++ x.1.text) x.2 h.of_cons
    rw [write_cons, Reader.tokens_of_scans_some hfound, hrest, tokensAfter_cons]
    simp only [List.append_assoc]
    rfl

end Literal

/-- Literals in a row, the first of them after some spaces. -/
structure Spelling where
  lead : Nat
  items : List (Literal × Nat)
  apart : items.IsChain Literal.Apart

namespace Spelling

def text (s : Spelling) : Text := Text.spaces s.lead ++ Literal.write s.items

def before (s : Spelling) (i : Nat) : Text :=
  Text.spaces s.lead ++ Literal.write (s.items.take i)

/-- A literal is written right behind what is written before it. -/
theorem before_append_isPrefix (s : Spelling) {i : Nat} (h : i < s.items.length) :
    s.before i ++ s.items[i].1.text <+: s.text := by
  refine ⟨Text.spaces s.items[i].2 ++ Literal.write (s.items.drop (i + 1)), ?_⟩
  have hsplit : Literal.write s.items =
      Literal.write (s.items.take i) ++ Literal.write (s.items.drop i) := by
    rw [Literal.write, Literal.write, Literal.write, ← List.flatMap_append,
      List.take_append_drop]
  rw [before, text, hsplit, List.drop_eq_getElem_cons h, Literal.write_cons]
  simp only [List.append_assoc]

end Spelling

/-- Reading undoes writing. The text of literals, whatever they are and however many spaces stand
between them, is read as one token for each of them, with its kind and its value, at the place where
the literal is written. -/
theorem tokenize_spelling (s : Spelling) :
    tokenize s.text =
      .ok (s.items.mapIdx fun i x => ⟨x.1.kind, x.1.value, (s.before i).length⟩) ∧
    ∀ i : Fin s.items.length, s.before i ++ s.items[i].1.text <+: s.text := by
  constructor
  · exact tokenize_of_ended (Literal.tokens_write [] s.lead s.apart)
  · intro i
    exact s.before_append_isPrefix i.isLt

-- A word, a quotation mark and a backslash in quotes, and a word again, with spaces around them.
example :
    let s : Spelling := ⟨1, [(.word "ab".toList rfl, 0), (.quoted ['"', '\\'], 0),
      (.word "c".toList rfl, 2)], by simp [Literal.Apart, Literal.IsWord]⟩
    s.text = " ab\"\\\"\\\\\"c  ".toList ∧ tokenize s.text =
      .ok [⟨.term, "ab".toList, 1⟩, ⟨.term, ['"', '\\'], 3⟩, ⟨.term, ['c'], 9⟩] := by
  decide +kernel

end FuzzyQuery
