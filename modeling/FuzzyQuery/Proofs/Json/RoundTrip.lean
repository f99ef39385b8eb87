import Mathlib.Data.List.Basic
import Mathlib.Tactic.SplitIfs
import FuzzyQuery.Proofs.Json
import FuzzyQuery.Proofs.Runs

/-!
# What is written is read again

Every way in which a character may be written is undone by the reader, which learns from the text
itself where a character, a text or a number ends: a number needs a character behind it that is no
digit, and wherever a number is written there is one. So the tokens of a value come back in both
repertoires and at every depth, and from its tokens the value does, inside of any others that have
been begun.
-/

namespace FuzzyQuery.Json

variable {repertoire : Repertoire}

theorem hexDigit?_digitChar {n : Nat} (h : n < 16) : hexDigit? n.digitChar = some n := by
  have hall : ∀ n < 16, hexDigit? n.digitChar = some n := by decide
  exact hall n h

theorem hexNumber?_append_singleton (digits : Text) (c : Char) :
    hexNumber? (digits ++ [c]) =
      (hexNumber? digits).bind fun n => (hexDigit? c).map (16 * n + ·) := by
  simp [hexNumber?, List.foldlM_append]

theorem hexNumber?_toDigits (n : Nat) : hexNumber? (Nat.toDigits 16 n) = some n := by
  induction n using Nat.strongRecOn with
  | _ n ih =>
    rw [Nat.toDigits_eq_if (by decide)]
    split
    · next h => simp [hexNumber?, hexDigit?_digitChar h]
    · next h =>
      rw [hexNumber?_append_singleton, ih (n / 16) (by omega),
        hexDigit?_digitChar (Nat.mod_lt n (by decide))]
      exact congrArg some (Nat.div_add_mod n 16)

theorem hexNumber?_zeros (width : Nat) (digits : Text) :
    hexNumber? (List.replicate width '0' ++ digits) = hexNumber? digits := by
  induction width with
  | zero => rfl
  | succ width ih => exact ih

theorem hexNumber?_hex (width n : Nat) : hexNumber? (Text.hex width n) = some n :=
  (hexNumber?_zeros _ _).trans (hexNumber?_toDigits n)

theorem length_hex {n : Nat} (h : n < 0x10000) : (Text.hex 4 n).length = 4 := by
  have hle : (Nat.toDigits 16 n).length ≤ 4 :=
    (Nat.length_toDigits_le_iff (by decide) (by decide)).2 h
  simp only [Text.hex, List.length_append, List.length_replicate]
  omega

theorem readUnit_hex {n : Nat} (h : n < 0x10000) (t : Text) :
    readUnit (Text.hex 4 n ++ t) = some (n, t) := by
  have hlength : (Text.hex 4 n).length = 4 := length_hex h
  have hlong : ¬ (Text.hex 4 n ++ t).length < 4 := by
    rw [List.length_append]
    omega
  rw [readUnit, if_neg hlong, List.take_left' hlength, List.drop_left' hlength, hexNumber?_hex]
  rfl

/-- No character is a surrogate. -/
theorem toNat_range (c : Char) : c.toNat < 0xD800 ∨ 0xDFFF < c.toNat ∧ c.toNat < 0x110000 :=
  c.valid

theorem charAt?_toNat (c : Char) : charAt? c.toNat = some c := by
  have hvalid : c.toNat.isValidChar := c.valid
  rw [charAt?, if_pos hvalid, Char.ofNat_toNat]

theorem readChar_escapeUnit {n : Nat} (h : n < 0x10000) (t : Text) :
    readChar (escapeUnit n ++ t) = readPoint n t := by
  change (readUnit (Text.hex 4 n ++ t)).bind _ = _
  rw [readUnit_hex h, Option.bind_some]

theorem readPoint_toNat (c : Char) (t : Text) : readPoint c.toNat t = some (c, t) := by
  have hrange := toNat_range c
  rw [readPoint, if_neg (by omega), charAt?_toNat]
  rfl

/-- The two units that stand for a character are surrogates, and it is computed from them. -/
theorem readPoint_surrogates {c : Char} (h : 0x10000 ≤ c.toNat) (t : Text) :
    readPoint (surrogates c.toNat).1 (escapeUnit (surrogates c.toNat).2 ++ t) = some (c, t) := by
  have hrange := toNat_range c
  obtain ⟨high, low, hpair⟩ : ∃ high low, surrogates c.toNat = (high, low) := ⟨_, _, rfl⟩
  have hhigh : high = 0xD800 + (c.toNat - 0x10000) / 0x400 := congrArg Prod.fst hpair.symm
  have hlow : low = 0xDC00 + (c.toNat - 0x10000) % 0x400 := congrArg Prod.snd hpair.symm
  have hread : readEscapedUnit (escapeUnit low ++ t) = some (low, t) := readUnit_hex (by omega) t
  have hpoint : 0x10000 + 0x400 * (high - 0xD800) + (low - 0xDC00) = c.toNat := by omega
  rw [hpair, readPoint, if_pos (by dsimp only; omega), hread, Option.bind_some]
  dsimp only
  rw [if_pos (by omega), hpoint, charAt?_toNat]
  rfl

theorem readChar_plain {c : Char} (hlow : 0x20 ≤ c.toNat) (hquote : c ≠ '"') (hslash : c ≠ '\\')
    (t : Text) : readChar (c :: t) = some (c, t) := by
  rw [readChar, if_neg (Nat.not_lt.2 hlow)]
  · exact fun h => hquote h
  · exact fun h => hslash h

theorem readChar_escapeAscii {c : Char} (hlow : 0x20 ≤ c.toNat) (hquote : c ≠ '"')
    (hslash : c ≠ '\\') (t : Text) : readChar (escapeAscii c ++ t) = some (c, t) := by
  unfold escapeAscii
  split
  · exact readChar_plain hlow hquote hslash t
  split
  · next h => rw [readChar_escapeUnit h, readPoint_toNat]
  · next h =>
    have hhigh : (surrogates c.toNat).1 < 0x10000 := by
      have hrange := toNat_range c
      dsimp only [surrogates]
      omega
    rw [List.append_assoc, readChar_escapeUnit hhigh, readPoint_surrogates (Nat.not_lt.1 h)]

/-- However a character is written, it is read again. -/
theorem readChar_escapeChar (c : Char) (t : Text) :
    readChar (escapeChar repertoire c ++ t) = some (c, t) := by
  unfold escapeChar
  split_ifs with hmark hb ht hn hf hr hcontrol
  · obtain rfl | rfl := hmark
    · rfl
    · rfl
  · rw [hb]; rfl
  · rw [ht]; rfl
  · rw [hn]; rfl
  · rw [hf]; rfl
  · rw [hr]; rfl
  · rw [readChar_escapeUnit (by omega), readPoint_toNat]
  · obtain ⟨hquote, hslash⟩ := not_or.1 hmark
    cases repertoire with
    | ascii => exact readChar_escapeAscii (Nat.not_lt.1 hcontrol) hquote hslash t
    | unicode => exact readChar_plain (Nat.not_lt.1 hcontrol) hquote hslash t

theorem readText_of_readChar {t rest : Text} {c : Char} (h : readChar t = some (c, rest)) :
    readText t = (readText rest).map fun (value, rest) => (c :: value, rest) := by
  rw [readText]
  split
  · next h' =>
    cases h.symm.trans h'
    rfl
  · next h' => cases h.symm.trans h'

theorem readText_quoted (value t : Text) :
    readText (value.flatMap (escapeChar repertoire) ++ '"' :: t) = some (value, t) := by
  induction value with
  | nil =>
    rw [List.flatMap_nil, List.nil_append, readText]
    rfl
  | cons c value ih =>
    rw [List.flatMap_cons, List.append_assoc, readText_of_readChar (readChar_escapeChar c _), ih]
    rfl

/-- No digit follows, so that a number would end here. -/
def EndsNumber (t : Text) : Prop := ∀ c ∈ t.head?, c.isDigit = false

theorem head?_toDigits_ne_zero {n : Nat} (h : 0 < n) : (Nat.toDigits 10 n).head? ≠ some '0' := by
  induction n using Nat.strongRecOn with
  | _ n ih =>
    rw [Nat.toDigits_eq_if (by decide)]
    split
    · next hlt =>
      have hall : ∀ n < 10, 0 < n → [n.digitChar].head? ≠ some '0' := by decide
      exact hall n hlt h
    · next hle =>
      rw [List.head?_append_of_ne_nil _ Nat.toDigits_ne_nil]
      exact ih (n / 10) (by omega) (by omega)

theorem readNatural_ofNat (n : Nat) {t : Text} (h : EndsNumber t) :
    readNatural (Text.ofNat n ++ t) = some (n, t) := by
  have hdigits : ∀ c ∈ Nat.toDigits 10 n, c.isDigit = true :=
    fun c hc => Nat.isDigit_of_mem_toDigits (by decide) (by decide) hc
  have hlead : ¬ (Nat.toDigits 10 n = [] ∨
      '0' ∈ (Nat.toDigits 10 n).head? ∧ (Nat.toDigits 10 n).length ≠ 1) := by
    rintro (hnil | ⟨hzero, hlong⟩)
    · exact Nat.toDigits_ne_nil hnil
    -- Only zero begins with a zero, and it has no other digit.
    obtain rfl | hpos := Nat.eq_zero_or_pos n
    · exact hlong rfl
    · exact head?_toDigits_ne_zero hpos hzero
  rw [readNatural, Text.ofNat, takeWhile_append_of_stop hdigits h,
    dropWhile_append_of_stop hdigits h, if_neg hlead,
    Nat.ofDigitChars_toDigits (by decide) (by decide)]

theorem readToken_of_isDigit {c : Char} (h : c.isDigit = true) (t : Text) :
    readToken c t = (readNatural (c :: t)).map fun (n, rest) => (.number n, rest) := by
  unfold readToken
  split
  case h_11 => rfl
  all_goals cases h

theorem isDigit_of_isSpace {c : Char} (h : isSpace c = true) : c.isDigit = false := by
  obtain rfl | rfl | rfl | rfl := of_decide_eq_true h
  all_goals rfl

theorem isSpace_of_isDigit {c : Char} (h : c.isDigit = true) : isSpace c = false := by
  rw [Bool.eq_false_iff]
  intro hspace
  rw [isDigit_of_isSpace hspace] at h
  cases h

section

variable {c : Char} {t rest : Text} {token : Token}

theorem readTokens_of_isSpace (h : isSpace c = true) (t : Text) :
    readTokens (c :: t) = readTokens t := by
  rw [readTokens, if_pos h]

theorem readTokens_of_readToken (hc : isSpace c = false) (h : readToken c t = some (token, rest)) :
    readTokens (c :: t) = (readTokens rest).map (token :: ·) := by
  rw [readTokens, if_neg (Bool.eq_false_iff.1 hc)]
  split
  · next h' =>
    cases h.symm.trans h'
    rfl
  · next h' => cases h.symm.trans h'

theorem readTokens_closeArray (t : Text) :
    readTokens (']' :: t) = (readTokens t).map (.closeArray :: ·) := readTokens_of_readToken rfl rfl

theorem readTokens_closeObject (t : Text) :
    readTokens ('\x7d' :: t) = (readTokens t).map (.closeObject :: ·) :=
  readTokens_of_readToken rfl rfl

theorem readTokens_nil : readTokens [] = some [] := by rw [readTokens]

theorem readTokens_blanks (h : ∀ c ∈ t, isSpace c = true) : readTokens t = some [] := by
  induction t with
  | nil => exact readTokens_nil
  | cons c t ih =>
    obtain ⟨hc, ht⟩ := List.forall_mem_cons.1 h
    exact (readTokens_of_isSpace hc t).trans (ih ht)

theorem readTokens_newline (depth : Nat) (t : Text) :
    readTokens (newline depth ++ t) = readTokens t := by
  have hspaces : ∀ n, readTokens (Text.spaces n ++ t) = readTokens t := by
    intro n
    induction n with
    | zero => rfl
    | succ n ih => exact (readTokens_of_isSpace rfl _).trans ih
  exact (readTokens_of_isSpace rfl _).trans (hspaces _)

theorem readTokens_quote (value t : Text) :
    readTokens (quote repertoire value ++ t) = (readTokens t).map (.text value :: ·) := by
  refine readTokens_of_readToken rfl ?_
  change (readText (value.flatMap (escapeChar repertoire) ++ ['"'] ++ t)).map _ = _
  rw [List.append_assoc, List.singleton_append, readText_quoted]
  rfl

theorem readTokens_key (key t : Text) :
    readTokens (quote repertoire key ++ ':' :: ' ' :: t) =
      (readTokens t).map (.text key :: .colon :: ·) := by
  have hcolon : readTokens (':' :: ' ' :: t) = (readTokens (' ' :: t)).map (.colon :: ·) :=
    readTokens_of_readToken rfl rfl
  rw [readTokens_quote, hcolon, readTokens_of_isSpace rfl, Option.map_map]
  rfl

theorem readTokens_ofNat (n : Nat) (h : EndsNumber t) :
    readTokens (Text.ofNat n ++ t) = (readTokens t).map (.number n :: ·) := by
  obtain ⟨c, digits, hdigits⟩ := List.exists_cons_of_ne_nil (Nat.toDigits_ne_nil (n := n) (b := 10))
  have hc : c.isDigit = true :=
    Nat.isDigit_of_mem_toDigits (b := 10) (n := n) (by decide) (by decide)
      (hdigits ▸ List.mem_cons_self)
  have hread := readNatural_ofNat n h
  rw [Text.ofNat, hdigits, List.cons_append] at hread ⊢
  exact readTokens_of_readToken (isSpace_of_isDigit hc)
    (by rw [readToken_of_isDigit hc, hread, Option.map_some])

theorem readTokens_ofInt (n : Int) (h : EndsNumber t) :
    readTokens (Text.ofInt n ++ t) = (readTokens t).map (.number n :: ·) := by
  cases n with
  | ofNat n => exact readTokens_ofNat n h
  | negSucc n =>
    refine readTokens_of_readToken rfl ?_
    change (readNatural (Text.ofNat (n + 1) ++ t)).map _ = _
    rw [readNatural_ofNat (n + 1) h]
    rfl

end

mutual

def tokens : Json → List Token
  | text value => [.text value]
  | number value => [.number value]
  | bool value => [.bool value]
  | array [] => [.openArray, .closeArray]
  | array (x :: xs) => .openArray :: tokens x ++ itemTokens xs ++ [.closeArray]
  | object [] => [.openObject, .closeObject]
  | object ((key, x) :: members) =>
    .openObject :: .text key :: .colon :: tokens x ++ memberTokens members ++ [.closeObject]

def itemTokens : List Json → List Token
  | [] => []
  | x :: xs => .comma :: tokens x ++ itemTokens xs

def memberTokens : List (Text × Json) → List Token
  | [] => []
  | (key, x) :: members => .comma :: .text key :: .colon :: tokens x ++ memberTokens members

end

theorem endsNumber_mark {c : Char} (h : c.isDigit = false) (t : Text) : EndsNumber (c :: t) := by
  rintro _ ⟨⟩
  exact h

theorem endsNumber_writeItems (depth : Nat) (xs : List Json) {t : Text} (h : EndsNumber t) :
    EndsNumber (writeItems repertoire depth xs ++ t) := by
  cases xs with
  | nil => exact h
  | cons x xs => exact endsNumber_mark rfl _

theorem endsNumber_writeMembers (depth : Nat) (members : List (Text × Json)) {t : Text}
    (h : EndsNumber t) : EndsNumber (writeMembers repertoire depth members ++ t) := by
  cases members with
  | nil => exact h
  | cons member members => exact endsNumber_mark rfl _

mutual

theorem readTokens_writeAt (depth : Nat) (x : Json) {t : Text} (h : EndsNumber t) :
    readTokens (writeAt repertoire depth x ++ t) = (readTokens t).map (x.tokens ++ ·) := by
  match x with
  | text value => exact readTokens_quote value t
  | number value => exact readTokens_ofInt value h
  | bool true => exact readTokens_of_readToken rfl rfl
  | bool false => exact readTokens_of_readToken rfl rfl
  | array [] =>
    simp only [writeAt, List.cons_append, List.nil_append]
    rw [readTokens_of_readToken rfl rfl, readTokens_closeArray, Option.map_map]
    rfl
  | array (x :: xs) =>
    -- Behind an item stands a comma or a line break, which ends the number that it may be.
    have hend : EndsNumber (newline depth ++ ']' :: t) := endsNumber_mark rfl _
    simp only [writeAt, List.cons_append, List.append_assoc, List.nil_append]
    rw [readTokens_of_readToken rfl rfl, readTokens_newline,
      readTokens_writeAt (depth + 1) x (endsNumber_writeItems (depth + 1) xs hend),
      readTokens_writeItems (depth + 1) xs hend, readTokens_newline, readTokens_closeArray]
    simp only [Option.map_map, Function.comp_def, tokens, List.cons_append, List.append_assoc,
      List.nil_append]
  | object [] =>
    simp only [writeAt, List.cons_append, List.nil_append]
    rw [readTokens_of_readToken rfl rfl, readTokens_closeObject, Option.map_map]
    rfl
  | object ((key, x) :: members) =>
    have hend : EndsNumber (newline depth ++ '\x7d' :: t) := endsNumber_mark rfl _
    simp only [writeAt, List.cons_append, List.append_assoc, List.nil_append]
    rw [readTokens_of_readToken rfl rfl, readTokens_newline, readTokens_key,
      readTokens_writeAt (depth + 1) x (endsNumber_writeMembers (depth + 1) members hend),
      readTokens_writeMembers (depth + 1) members hend, readTokens_newline,
      readTokens_closeObject]
    simp only [Option.map_map, Function.comp_def, tokens, List.cons_append, List.append_assoc,
      List.nil_append]

theorem readTokens_writeItems (depth : Nat) (xs : List Json) {t : Text} (h : EndsNumber t) :
    readTokens (writeItems repertoire depth xs ++ t) = (readTokens t).map (itemTokens xs ++ ·) := by
  match xs with
  | [] => exact Option.map_id'.symm
  | x :: xs =>
    simp only [writeItems, List.cons_append, List.append_assoc]
    rw [readTokens_of_readToken rfl rfl, readTokens_newline,
      readTokens_writeAt depth x (endsNumber_writeItems depth xs h),
      readTokens_writeItems depth xs h]
    simp only [Option.map_map, Function.comp_def, itemTokens, List.cons_append, List.append_assoc]

theorem readTokens_writeMembers (depth : Nat) (members : List (Text × Json)) {t : Text}
    (h : EndsNumber t) : readTokens (writeMembers repertoire depth members ++ t) =
      (readTokens t).map (memberTokens members ++ ·) := by
  match members with
  | [] => exact Option.map_id'.symm
  | (key, x) :: members =>
    simp only [writeMembers, List.cons_append, List.append_assoc, List.nil_append]
    rw [readTokens_of_readToken rfl rfl, readTokens_newline, readTokens_key,
      readTokens_writeAt depth x (endsNumber_writeMembers depth members h),
      readTokens_writeMembers depth members h]
    simp only [Option.map_map, Function.comp_def, memberTokens, List.cons_append,
      List.append_assoc]

end

/-- An array that has an item is not taken for an empty one, for no value begins with the mark that
closes it. -/
theorem readValue_items (outer : List Frame) (x : Json) (ts : List Token) :
    readValue outer (.openArray :: (x.tokens ++ ts)) =
      readValue (.array [] :: outer) (x.tokens ++ ts) := by
  match x with
  | text _ | number _ | bool _ | array [] | array (_ :: _) | object [] | object (_ :: _) => rfl

mutual

theorem readValue_tokens (outer : List Frame) (x : Json) (ts : List Token) :
    readValue outer (x.tokens ++ ts) = resume x outer ts := by
  match x with
  | text value => rfl
  | number value => rfl
  | bool value => rfl
  | array [] => rfl
  | array (x :: xs) =>
    simp only [tokens, List.cons_append, List.append_assoc, List.nil_append]
    rw [readValue_items, readValue_tokens, resume_itemTokens, List.nil_append]
  | object [] => rfl
  | object ((key, x) :: members) =>
    simp only [tokens, List.cons_append, List.append_assoc, List.nil_append]
    rw [readValue, readValue_tokens, resume_memberTokens, List.nil_append]

theorem resume_itemTokens (outer : List Frame) (before : List Json) (x : Json) (xs : List Json)
    (ts : List Token) : resume x (.array before :: outer) (itemTokens xs ++ .closeArray :: ts) =
      resume (.array (before ++ x :: xs)) outer ts := by
  match xs with
  | [] => rfl
  | y :: xs =>
    simp only [itemTokens, List.cons_append, List.append_assoc]
    rw [resume, readValue_tokens, resume_itemTokens, List.append_assoc]
    rfl

theorem resume_memberTokens (outer : List Frame) (before : List (Text × Json)) (key : Text)
    (x : Json) (members : List (Text × Json)) (ts : List Token) :
    resume x (.object before key :: outer) (memberTokens members ++ .closeObject :: ts) =
      resume (.object (before ++ (key, x) :: members)) outer ts := by
  match members with
  | [] => rfl
  | (next, y) :: members =>
    simp only [memberTokens, List.cons_append, List.append_assoc]
    rw [resume, readValue_tokens, resume_memberTokens, List.append_assoc]
    rfl

end

/-- What is written is read again, also with blanks behind it. -/
theorem decode_write (x : Json) {t : Text} (h : ∀ c ∈ t, isSpace c = true) :
    decode (x.write repertoire ++ t) = some x := by
  have hends : EndsNumber t := fun c hc => isDigit_of_isSpace (h c (List.mem_of_mem_head? hc))
  rw [decode, write, readTokens_writeAt 0 x hends, readTokens_blanks h]
  exact readValue_tokens [] x []

theorem write_injective : Function.Injective (write repertoire) := by
  intro x y h
  have hx : decode (x.write repertoire ++ []) = some x := decode_write x (List.forall_mem_nil _)
  have hy : decode (y.write repertoire ++ []) = some y := decode_write y (List.forall_mem_nil _)
  rw [h, hy] at hx
  exact (Option.some.inj hx).symm

end FuzzyQuery.Json
