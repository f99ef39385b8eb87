import FuzzyQuery.Token.Stream
import FuzzyQuery.Tree.Parse

/-!
# Reading queries from a stream

A session reads queries from one token stream and remembers the style of the last one. Tokens are
read only as far as the query makes sense: a character that starts no token is reported when all
the tokens before it could be accepted, and otherwise the token that could not be.
-/

namespace FuzzyQuery

structure Session where
  stream : TokenStream
  style : Option Style
  deriving DecidableEq

namespace Session

def ofText (query : Text) : Session := ⟨.ofText query, none⟩

/-- The error of a step that stopped. It blames the first token that is left; without one it blames
the place where the tokens end, or the character there that starts no token. -/
def blame (fault : Fault) (stop : Reader) : List Token → QueryError
  | t :: _ => .ofSource stop.source fault t.pos
  | [] => if stop.atEnd then stop.fail fault else stop.unexpected

def outcome (stop : Reader) : Parse.Step → Except QueryError Tree
  | .read tree _ _ => stop.checkEnd.map fun _ => tree
  | .stopped fault _ rest => .error (blame fault stop rest)

/-- Reads one query up to the end of the stream. The token that is blamed has been looked at and
not been taken. -/
def parse (s : Session) : Except QueryError Tree × Session :=
  let (tokens, stop) := s.stream.upcoming
  let step := Parse.query tokens
  let taken := tokens.length - step.rest.length
  (outcome stop step, ⟨(s.stream.advance taken).peek.2, step.style⟩)

/-- The error when there is no token of this kind. Only parentheses are known as punctuation: looking
up another kind fails, and what is told then is the kind, without an excerpt. -/
def missing (kind : TokenKind) (source : Text) (position : Nat) : QueryError :=
  match kind with
  | .opening | .closing => .ofSource source (.expectedPunctuation kind.symbol) position
  | .term | .not | .and | .or => ⟨.other none kind.key, position, none⟩

/-- Takes the next token if it is of the given kind, and otherwise leaves it. -/
def expect (kind : TokenKind) (s : Session) : Except QueryError Token × Session :=
  match s.stream.peek with
  | (.error e, stream) => (.error e, { s with stream })
  | (.ok (some t), stream) =>
    if t.kind = kind then (.ok t, { s with stream := stream.next.2 })
    else (.error (missing kind stream.source t.pos), { s with stream })
  | (.ok none, stream) =>
    (.error (missing kind stream.source stream.reader.position), { s with stream })

end Session

def parse (query : Text) : Except QueryError Tree := (Session.ofText query).parse.1

end FuzzyQuery
