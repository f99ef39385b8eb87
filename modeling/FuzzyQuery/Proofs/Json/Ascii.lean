import Mathlib.Tactic.SplitIfs
import FuzzyQuery.Json

/-!
# JSON in ASCII

In the smaller repertoire every character of a text that ASCII does not have is written by its
units, and these by hexadecimal digits. What else is written are marks, blanks, digits and letters.
-/

namespace FuzzyQuery

def Ascii (t : Text) : Prop := ∀ c ∈ t, c.toNat < 0x80

instance (t : Text) : Decidable (Ascii t) :=
  List.decidableBAll (fun c : Char => c.toNat < 0x80) t

section

variable {t u : Text} {c : Char}

@[simp] theorem ascii_nil : Ascii [] := List.forall_mem_nil _

@[simp] theorem ascii_cons : Ascii (c :: t) ↔ c.toNat < 0x80 ∧ Ascii t := List.forall_mem_cons

@[simp] theorem ascii_append : Ascii (t ++ u) ↔ Ascii t ∧ Ascii u := List.forall_mem_append

theorem ascii_flatMap {f : Char → Text} (h : ∀ c, Ascii (f c)) (t : Text) :
    Ascii (t.flatMap f) := by
  intro c hc
  obtain ⟨a, -, hmem⟩ := List.mem_flatMap.1 hc
  exact h a c hmem

theorem ascii_replicate (n : Nat) (h : c.toNat < 0x80) : Ascii (List.replicate n c) := by
  intro a ha
  rw [List.eq_of_mem_replicate ha]
  exact h

theorem ascii_toDigits (n : Nat) {base : Nat} (hone : 1 < base) (hle : base ≤ 16) :
    Ascii (Nat.toDigits base n) := by
  have hdigit : ∀ n < 16, Ascii [n.digitChar] := by decide
  induction n using Nat.strongRecOn with
  | _ n ih =>
    rw [Nat.toDigits_eq_if hone]
    split
    · exact hdigit n (by omega)
    · refine ascii_append.2 ⟨ih (n / base) (Nat.div_lt_self (by omega) hone), hdigit _ ?_⟩
      exact Nat.lt_of_lt_of_le (Nat.mod_lt n (by omega)) hle

theorem ascii_ofInt (n : Int) : Ascii (Text.ofInt n) := by
  cases n with
  | ofNat n => exact ascii_toDigits n (by decide) (by decide)
  | negSucc n => exact ascii_cons.2 ⟨by decide, ascii_toDigits (n + 1) (by decide) (by decide)⟩

end

namespace Json

theorem ascii_escapeUnit (n : Nat) : Ascii (escapeUnit n) := by
  have hhex : Ascii (Text.hex 4 n) :=
    ascii_append.2 ⟨ascii_replicate _ (by decide), ascii_toDigits n (by decide) (by decide)⟩
  exact ascii_cons.2 ⟨by decide, ascii_cons.2 ⟨by decide, hhex⟩⟩

theorem ascii_escapeAscii (c : Char) : Ascii (escapeAscii c) := by
  unfold escapeAscii
  split_ifs with hplain hunit
  · exact ascii_cons.2 ⟨Nat.lt_succ_of_lt hplain, ascii_nil⟩
  · exact ascii_escapeUnit c.toNat
  · exact ascii_append.2 ⟨ascii_escapeUnit _, ascii_escapeUnit _⟩

theorem ascii_escapeChar (c : Char) : Ascii (escapeChar .ascii c) := by
  unfold escapeChar
  split_ifs with hmark
  · obtain rfl | rfl := hmark
    · decide
    · decide
  · decide
  · decide
  · decide
  · decide
  · decide
  · exact ascii_escapeUnit c.toNat
  · exact ascii_escapeAscii c

@[simp] theorem ascii_quote (t : Text) : Ascii (quote .ascii t) :=
  ascii_cons.2 ⟨by decide, ascii_append.2 ⟨ascii_flatMap ascii_escapeChar t, by decide⟩⟩

@[simp] theorem ascii_newline (depth : Nat) : Ascii (newline depth) :=
  ascii_cons.2 ⟨by decide, ascii_replicate _ (by decide)⟩

mutual

theorem ascii_writeAt (depth : Nat) (x : Json) : Ascii (writeAt .ascii depth x) := by
  match x with
  | text value => exact ascii_quote value
  | number value => exact ascii_ofInt value
  | bool true => simp [writeAt]
  | bool false => simp [writeAt]
  | array [] => simp [writeAt]
  | array (x :: xs) =>
    have hx := ascii_writeAt (depth + 1) x
    have hxs := ascii_writeItems (depth + 1) xs
    simp [writeAt, hx, hxs]
  | object [] => simp [writeAt]
  | object ((key, x) :: members) =>
    have hx := ascii_writeAt (depth + 1) x
    have hmembers := ascii_writeMembers (depth + 1) members
    simp [writeAt, hx, hmembers]

theorem ascii_writeItems (depth : Nat) (xs : List Json) : Ascii (writeItems .ascii depth xs) := by
  match xs with
  | [] => exact ascii_nil
  | x :: xs =>
    have hx := ascii_writeAt depth x
    have hxs := ascii_writeItems depth xs
    simp [writeItems, hx, hxs]

theorem ascii_writeMembers (depth : Nat) (members : List (Text × Json)) :
    Ascii (writeMembers .ascii depth members) := by
  match members with
  | [] => exact ascii_nil
  | (key, x) :: members =>
    have hx := ascii_writeAt depth x
    have hmembers := ascii_writeMembers depth members
    simp [writeMembers, hx, hmembers]

end

theorem ascii_write (x : Json) : Ascii (x.write .ascii) := ascii_writeAt 0 x

end Json

end FuzzyQuery
