import FuzzyQuery.Reader
import FuzzyQuery.Text.Quoted
import FuzzyQuery.Word

/-!
# From characters to tokens

Spaces separate tokens and mean nothing else. At any other character a token starts, or the query
is refused at that character. Every token takes up at least one character, so a query holds
finitely many tokens and all of them can be read at once.
-/

namespace FuzzyQuery

/-- A token without its place, together with the number of characters it takes up. -/
structure Lexeme where
  kind : TokenKind
  value : Text
  width : Nat
  deriving DecidableEq

def Lexeme.read? (c : Char) (t : Text) : Option Lexeme :=
  if c = '"' then
    let body := Quoted.read t
    some ⟨.term, body.1, body.2 + 1⟩
  else if isWordChar c then
    let word := (c :: t).takeWhile isWordChar
    some ⟨.term, word, word.length⟩
  else (TokenKind.ofSymbol? c).map fun kind => ⟨kind, [c], 1⟩

theorem Lexeme.width_pos {c : Char} {t : Text} {x : Lexeme} (h : read? c t = some x) :
    0 < x.width := by
  simp only [read?] at h
  split at h
  · cases h; exact Nat.succ_pos _
  · split at h
    · rename_i hc
      cases h
      simp [hc]
    · obtain ⟨kind, _, rfl⟩ := Option.map_eq_some_iff.1 h
      exact Nat.one_pos

theorem Lexeme.width_le {c : Char} {t : Text} {x : Lexeme} (h : read? c t = some x) :
    x.width ≤ (c :: t).length := by
  simp only [read?] at h
  split at h
  · cases h; exact Nat.succ_le_succ (Quoted.width_read_le t)
  · split at h
    · cases h; exact (List.takeWhile_sublist _).length_le
    · obtain ⟨kind, _, rfl⟩ := Option.map_eq_some_iff.1 h
      simp

def isSpace (c : Char) : Bool := c == ' '

namespace Reader

def skipSpaces (r : Reader) : Reader := (r.readWhile isSpace).2

/-- Reads one token. Without one, the reader is left at the end or at the character that no token
starts with. -/
def scan (r : Reader) : Option Token × Reader :=
  let r := r.skipSpaces
  match r.rest with
  | [] => (none, r)
  | c :: t =>
    match Lexeme.read? c t with
    | none => (none, r)
    | some x => (some ⟨x.kind, x.value, r.position⟩, r.advance x.width)

theorem rest_skipSpaces (r : Reader) : r.skipSpaces.rest = r.rest.dropWhile isSpace :=
  rest_readWhile isSpace r

@[simp] theorem source_skipSpaces (r : Reader) : r.skipSpaces.source = r.source :=
  source_advance _ r

@[simp] theorem source_scan (r : Reader) : r.scan.2.source = r.source := by
  simp only [scan]
  split
  · simp
  · split <;> simp

theorem length_rest_scan_lt {r : Reader} {t : Token} (h : r.scan.1 = some t) :
    r.scan.2.rest.length < r.rest.length := by
  have shorter : r.skipSpaces.rest.length ≤ r.rest.length := by
    rw [rest_skipSpaces]
    exact (List.dropWhile_sublist _).length_le
  revert h
  simp only [scan]
  split
  · simp
  · rename_i c s hr
    split
    · simp
    · rename_i x hx
      intro _
      have pos := Lexeme.width_pos hx
      have le := Lexeme.width_le hx
      rw [← hr] at le
      simp only [rest_advance, List.length_drop]
      omega

def tokens (r : Reader) : List Token × Reader :=
  match h : r.scan with
  | (none, r') => ([], r')
  | (some t, r') =>
    have : r'.rest.length < r.rest.length := by
      simpa only [h] using length_rest_scan_lt (r := r) (t := t) (by rw [h])
    let more := tokens r'
    (t :: more.1, more.2)
termination_by r.rest.length

/-- Where no token starts, reading fails unless the query ends there. -/
def checkEnd (r : Reader) : Except QueryError Unit :=
  if r.atEnd then .ok () else .error r.unexpected

def next (r : Reader) : Except QueryError (Option Token) × Reader :=
  match r.scan with
  | (some t, r') => (.ok (some t), r')
  | (none, r') => (r'.checkEnd.map fun _ => none, r')

theorem tokens_of_none {r : Reader} (h : r.scan.1 = none) : r.tokens = ([], r.scan.2) := by
  rw [tokens]
  split
  · rename_i hs; rw [hs]
  · rename_i hs; simp [hs] at h

theorem tokens_of_some {r : Reader} {t : Token} (h : r.scan.1 = some t) :
    r.tokens = (t :: r.scan.2.tokens.1, r.scan.2.tokens.2) := by
  rw [tokens]
  split
  · rename_i hs; simp [hs] at h
  · rename_i u r' hs
    obtain rfl : u = t := by simpa [hs] using h
    simp [hs]

@[simp] theorem source_tokens (r : Reader) : r.tokens.2.source = r.source := by
  fun_induction tokens r with
  | case1 r r' h => rw [← source_scan r, h]
  | case2 r t r' h _ more ih => exact ih.trans (by rw [← source_scan r, h])

end Reader

def tokenize (query : Text) : Except QueryError (List Token) :=
  let (tokens, stop) := (Reader.ofText query).tokens
  stop.checkEnd.map fun _ => tokens

end FuzzyQuery
