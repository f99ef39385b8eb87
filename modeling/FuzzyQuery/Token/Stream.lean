import FuzzyQuery.Token.Scan

/-!
# Token streams

A token stream reads tokens one at a time and can hold one token that was looked at and not yet
taken. An operation that fails leaves the reader at the character that is blamed, so that the next
operation fails in the same way.
-/

namespace FuzzyQuery

structure TokenStream where
  reader : Reader
  held : Option Token
  deriving DecidableEq

namespace TokenStream

def ofText (t : Text) : TokenStream := ⟨.ofText t, none⟩

def source (s : TokenStream) : Text := s.reader.source

/-- Looks at the next token, which is held from then on. -/
def peek (s : TokenStream) : Except QueryError (Option Token) × TokenStream :=
  match s.held with
  | some t => (.ok (some t), s)
  | none =>
    match s.reader.next with
    | (.ok token, r) => (.ok token, ⟨r, token⟩)
    | (.error e, r) => (.error e, ⟨r, none⟩)

def next (s : TokenStream) : Except QueryError (Option Token) × TokenStream :=
  match s.held with
  | some t => (.ok (some t), ⟨s.reader, none⟩)
  | none =>
    let (token, r) := s.reader.next
    (token, ⟨r, none⟩)

def atEnd (s : TokenStream) : Except QueryError Bool × TokenStream :=
  let (token, s') := s.peek
  (token.map Option.isNone, s')

/-- The tokens not taken yet, and the reader where no further token starts. -/
def upcoming (s : TokenStream) : List Token × Reader :=
  let (tokens, stop) := s.reader.tokens
  (s.held.toList ++ tokens, stop)

def drain (s : TokenStream) : Except QueryError (List Token) × TokenStream :=
  let (tokens, stop) := s.upcoming
  (stop.checkEnd.map fun _ => tokens, ⟨stop, none⟩)

def advance : Nat → TokenStream → TokenStream
  | 0, s => s
  | n + 1, s => advance n s.next.2

end TokenStream

end FuzzyQuery
