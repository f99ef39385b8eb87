import FuzzyQuery.Session

/-!
# Requests to a session

A session can be asked for tokens and for queries in any order, and its reader can be moved on
between two requests. Every request is answered from the state that the one before it left, also
when that one failed.
-/

namespace FuzzyQuery

namespace Session

inductive Request where
  | peek | next | atEnd | drain | parse
  | expect (kind : TokenKind)
  | consume
  | readWhile (p : Char → Bool)

inductive Answer where
  | token (found : Option Token)
  | tokens (found : List Token)
  | atEnd (ended : Bool)
  | tree (found : Tree)
  | text (found : Text)
  deriving DecidableEq

def onStream (s : Session) (answer : α → Answer)
    (f : TokenStream → Except QueryError α × TokenStream) : Except QueryError Answer × Session :=
  let r := f s.stream
  (r.1.map answer, { s with stream := r.2 })

def onReader (s : Session) (f : Reader → Text × Reader) : Except QueryError Answer × Session :=
  let r := f s.stream.reader
  (.ok (.text r.1), { s with stream := { s.stream with reader := r.2 } })

def ask (s : Session) : Request → Except QueryError Answer × Session
  | .peek => s.onStream .token TokenStream.peek
  | .next => s.onStream .token TokenStream.next
  | .atEnd => s.onStream .atEnd TokenStream.atEnd
  | .drain => s.onStream .tokens TokenStream.drain
  | .parse => (s.parse.1.map .tree, s.parse.2)
  | .expect kind => ((s.expect kind).1.map fun t => .token (some t), (s.expect kind).2)
  | .consume => s.onReader fun r => (r.consume.1.toList, r.consume.2)
  | .readWhile p => s.onReader (Reader.readWhile p)

def askAll (s : Session) : List Request → List (Except QueryError Answer) × Session
  | [] => ([], s)
  | q :: qs =>
    let r := s.ask q
    let more := r.2.askAll qs
    (r.1 :: more.1, more.2)

end Session

end FuzzyQuery
