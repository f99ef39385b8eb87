import Mathlib.Data.List.TakeWhile
import FuzzyQuery.Json

/-!
# Reading JSON

A text is cut into tokens, with any blanks between them, and the value is read off the tokens from
left to right. The reader knows nothing of how values are written here: it takes hexadecimal digits
in either case, the escapes that are never written, and members in any layout. Two escaped
surrogates stand for one character, and a surrogate alone for none. Of an object all members are
kept, also those that have one key. There are no values for `null` and for fractions, so these are
refused.
-/

namespace FuzzyQuery.Json

def hexDigit? (c : Char) : Option Nat :=
  if '0' ≤ c ∧ c ≤ '9' then some (c.toNat - '0'.toNat)
  else if 'a' ≤ c ∧ c ≤ 'f' then some (c.toNat - 'a'.toNat + 10)
  else if 'A' ≤ c ∧ c ≤ 'F' then some (c.toNat - 'A'.toNat + 10)
  else none

def hexNumber? (digits : Text) : Option Nat :=
  digits.foldlM (fun n c => (hexDigit? c).map (16 * n + ·)) 0

def charAt? (n : Nat) : Option Char := if n.isValidChar then some (Char.ofNat n) else none

def readUnit (t : Text) : Option (Nat × Text) :=
  if t.length < 4 then none else (hexNumber? (t.take 4)).map (·, t.drop 4)

def readEscapedUnit : Text → Option (Nat × Text)
  | '\\' :: 'u' :: t => readUnit t
  | _ => none

/-- Reads the one or two units of a character, when the first one is there already. -/
def readPoint (unit : Nat) (t : Text) : Option (Char × Text) :=
  if 0xD800 ≤ unit ∧ unit < 0xDC00 then
    (readEscapedUnit t).bind fun (second, rest) =>
      if 0xDC00 ≤ second ∧ second < 0xE000 then
        (charAt? (0x10000 + 0x400 * (unit - 0xD800) + (second - 0xDC00))).map (·, rest)
      else none
  else (charAt? unit).map (·, t)

def readEscape : Text → Option (Char × Text)
  | '"' :: t => some ('"', t)
  | '\\' :: t => some ('\\', t)
  | '/' :: t => some ('/', t)
  | 'b' :: t => some ('\x08', t)
  | 'f' :: t => some ('\x0C', t)
  | 'n' :: t => some ('\n', t)
  | 'r' :: t => some ('\r', t)
  | 't' :: t => some ('\t', t)
  | 'u' :: t => (readUnit t).bind fun (unit, rest) => readPoint unit rest
  | _ => none

def readChar : Text → Option (Char × Text)
  | [] => none
  | '"' :: _ => none
  | '\\' :: t => readEscape t
  | c :: t => if c.toNat < 0x20 then none else some (c, t)

section

variable {t rest : Text} {n unit : Nat} {c : Char}

theorem length_lt_of_readUnit (h : readUnit t = some (n, rest)) : rest.length < t.length := by
  unfold readUnit at h
  split at h
  · cases h
  · obtain ⟨_, -, hrest⟩ := Option.map_eq_some_iff.1 h
    cases hrest
    rw [List.length_drop]
    omega

theorem length_lt_of_readEscapedUnit (h : readEscapedUnit t = some (n, rest)) :
    rest.length < t.length := by
  unfold readEscapedUnit at h
  split at h
  · exact Nat.lt_succ_of_lt (Nat.lt_succ_of_lt (length_lt_of_readUnit h))
  · cases h

theorem length_le_of_readPoint (h : readPoint unit t = some (c, rest)) :
    rest.length ≤ t.length := by
  unfold readPoint at h
  split at h
  · obtain ⟨⟨second, rest'⟩, hsecond, h⟩ := Option.bind_eq_some_iff.1 h
    dsimp only at h
    split at h
    · obtain ⟨_, -, hrest⟩ := Option.map_eq_some_iff.1 h
      cases hrest
      exact Nat.le_of_lt (length_lt_of_readEscapedUnit hsecond)
    · cases h
  · obtain ⟨_, -, hrest⟩ := Option.map_eq_some_iff.1 h
    cases hrest
    exact Nat.le_refl _

theorem length_lt_of_readEscape (h : readEscape t = some (c, rest)) : rest.length < t.length := by
  unfold readEscape at h
  split at h
  case h_9 t =>
    obtain ⟨⟨unit, rest'⟩, hunit, hpoint⟩ := Option.bind_eq_some_iff.1 h
    have hlt := length_lt_of_readUnit hunit
    have hle := length_le_of_readPoint hpoint
    rw [List.length_cons]
    omega
  all_goals cases h <;> exact Nat.lt_succ_self _

theorem length_lt_of_readChar (h : readChar t = some (c, rest)) : rest.length < t.length := by
  unfold readChar at h
  split at h
  · cases h
  · cases h
  · exact Nat.lt_succ_of_lt (length_lt_of_readEscape h)
  · split at h
    · cases h
    · cases h
      exact Nat.lt_succ_self _

end

def readText (t : Text) : Option (Text × Text) :=
  match _h : readChar t with
  | some (c, rest) => (readText rest).map fun (value, rest) => (c :: value, rest)
  | none =>
    match t with
    | '"' :: rest => some ([], rest)
    | _ => none
termination_by t.length
decreasing_by exact length_lt_of_readChar _h

/-- Reads decimal digits, of which the first is no zero unless it is the only one. -/
def readNatural (t : Text) : Option (Nat × Text) :=
  let digits := t.takeWhile Char.isDigit
  if digits = [] ∨ '0' ∈ digits.head? ∧ digits.length ≠ 1 then none
  else some (Nat.ofDigitChars 10 digits 0, t.dropWhile Char.isDigit)

inductive Token where
  | openArray | closeArray | openObject | closeObject | comma | colon
  | text (value : Text)
  | number (value : Int)
  | bool (value : Bool)
  deriving DecidableEq

def readToken (c : Char) (t : Text) : Option (Token × Text) :=
  match c with
  | '[' => some (.openArray, t)
  | ']' => some (.closeArray, t)
  | '\x7b' => some (.openObject, t)
  | '\x7d' => some (.closeObject, t)
  | ',' => some (.comma, t)
  | ':' => some (.colon, t)
  | '"' => (readText t).map fun (value, rest) => (.text value, rest)
  | 't' => if "rue".toList.isPrefixOf t then some (.bool true, t.drop 3) else none
  | 'f' => if "alse".toList.isPrefixOf t then some (.bool false, t.drop 4) else none
  | '-' => (readNatural t).map fun (n, rest) => (.number (-n), rest)
  | c => (readNatural (c :: t)).map fun (n, rest) => (.number n, rest)

section

variable {t rest : Text} {c : Char}

theorem length_lt_of_readText {t rest value : Text} (h : readText t = some (value, rest)) :
    rest.length < t.length := by
  fun_induction readText t generalizing value with
  | case1 t c rest' hc ih =>
    obtain ⟨⟨value', rest''⟩, hmore, hrest⟩ := Option.map_eq_some_iff.1 h
    cases hrest
    exact Nat.lt_trans (ih hmore) (length_lt_of_readChar hc)
  | case2 t =>
    cases h
    exact Nat.lt_succ_self _
  | case3 => cases h

theorem length_lt_of_readNatural {n : Nat} (h : readNatural t = some (n, rest)) :
    rest.length < t.length := by
  unfold readNatural at h
  dsimp only at h
  split at h
  · cases h
  · next hdigits =>
    cases h
    have hne := List.length_pos_iff.2 (not_or.1 hdigits).1
    have hlength : (t.takeWhile Char.isDigit ++ t.dropWhile Char.isDigit).length = t.length :=
      congrArg List.length List.takeWhile_append_dropWhile
    rw [List.length_append] at hlength
    omega

theorem length_le_of_readToken {token : Token} (h : readToken c t = some (token, rest)) :
    rest.length ≤ t.length := by
  unfold readToken at h
  split at h
  case h_7 =>
    obtain ⟨⟨value, rest'⟩, hvalue, hrest⟩ := Option.map_eq_some_iff.1 h
    cases hrest
    exact Nat.le_of_lt (length_lt_of_readText hvalue)
  case h_8 | h_9 =>
    split at h
    · cases h
      rw [List.length_drop]
      exact Nat.sub_le _ _
    · cases h
  case h_10 =>
    obtain ⟨⟨n, rest'⟩, hn, hrest⟩ := Option.map_eq_some_iff.1 h
    cases hrest
    exact Nat.le_of_lt (length_lt_of_readNatural hn)
  case h_11 =>
    obtain ⟨⟨n, rest'⟩, hn, hrest⟩ := Option.map_eq_some_iff.1 h
    cases hrest
    exact Nat.le_of_lt_succ (length_lt_of_readNatural hn)
  all_goals cases h; exact Nat.le_refl _

end

def isSpace (c : Char) : Bool := c = ' ' ∨ c = '\n' ∨ c = '\r' ∨ c = '\t'

def readTokens : Text → Option (List Token)
  | [] => some []
  | c :: t =>
    if isSpace c then readTokens t
    else
      match _h : readToken c t with
      | some (token, rest) => (readTokens rest).map (token :: ·)
      | none => none
termination_by t => t.length
decreasing_by
  · exact Nat.lt_succ_self _
  · exact Nat.lt_succ_of_le (length_le_of_readToken _h)

/-- A value that has been begun: an array with its items so far, or an object with its members so
far and the key of the next one. -/
inductive Frame where
  | array (items : List Json)
  | object (members : List (Text × Json)) (key : Text)

mutual

def readValue (outer : List Frame) : List Token → Option Json
  | .text value :: ts => resume (.text value) outer ts
  | .number value :: ts => resume (.number value) outer ts
  | .bool value :: ts => resume (.bool value) outer ts
  | .openArray :: .closeArray :: ts => resume (.array []) outer ts
  | .openArray :: ts => readValue (.array [] :: outer) ts
  | .openObject :: .closeObject :: ts => resume (.object []) outer ts
  | .openObject :: .text key :: .colon :: ts => readValue (.object [] key :: outer) ts
  | _ => none

def resume (x : Json) (outer : List Frame) (ts : List Token) : Option Json :=
  match outer, ts with
  | [], [] => some x
  | .array items :: outer, .closeArray :: ts => resume (.array (items ++ [x])) outer ts
  | .array items :: outer, .comma :: ts => readValue (.array (items ++ [x]) :: outer) ts
  | .object members key :: outer, .closeObject :: ts =>
    resume (.object (members ++ [(key, x)])) outer ts
  | .object members key :: outer, .comma :: .text next :: .colon :: ts =>
    readValue (.object (members ++ [(key, x)]) next :: outer) ts
  | _, _ => none

end

/-- The one value that a text stands for. -/
def decode (t : Text) : Option Json := (readTokens t).bind (readValue [])

/-- No object in the value, at any depth, has two members with one key. -/
inductive KeysDistinct : Json → Prop
  | text (value : Text) : KeysDistinct (.text value)
  | number (value : Int) : KeysDistinct (.number value)
  | bool (value : Bool) : KeysDistinct (.bool value)
  | array {items : List Json} (items_distinct : ∀ x ∈ items, KeysDistinct x) :
    KeysDistinct (.array items)
  | object {members : List (Text × Json)} (keys_nodup : (members.map Prod.fst).Nodup)
      (members_distinct : ∀ member ∈ members, KeysDistinct member.2) :
    KeysDistinct (.object members)

end FuzzyQuery.Json
