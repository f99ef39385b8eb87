import FuzzyQuery.Json
import FuzzyQuery.Matcher
import FuzzyQuery.Table
import FuzzyQuery.Text.Display

/-!
# Reports

How tokens, trees, findings and errors are shown: as lines of text, as a table, or as JSON.
-/

namespace FuzzyQuery

def Token.report (t : Token) : Text :=
  Text.alignRight 4 (Text.ofNat t.pos) ++ Text.spaces 2 ++ Text.alignLeft 6 t.kind.name ++
    Text.spaces 2 ++ t.value

def Tree.toJson : Tree → Json
  | .term value =>
    .object [("value".toList, .text value), ("tolerance".toList, .number (tolerance value))]
  | .not inner => .object [("inner".toList, inner.toJson)]
  | .op operator left right =>
    .object [("kind".toList, .text [operator.symbol]), ("left".toList, left.toJson),
      ("right".toList, right.toJson)]

def QueryError.report (e : QueryError) : Text :=
  "Query error: ".toList ++ e.message ++ " (position ".toList ++ Text.ofInt e.position ++
    [')', '\n'] ++
    match e.excerpt with
    | none => []
    | some x => x.render.display ++ ['\n']

def Hit.slice (h : Hit) (subject : Text) : Text :=
  (subject.drop h.offset.toNat).take h.length.toNat

namespace Findings

def toJson (subject : Text) (f : Findings) : Json :=
  .object [("subject".toList, .text subject), ("success".toList, .bool f.success),
    ("term".toList, .object (f.hits.map fun h =>
      (Text.ofInt h.offset,
        .object [("length".toList, .number h.length), ("gap".toList, .number h.gap)])))]

def sortedHits (f : Findings) : List Hit := f.hits.mergeSort fun a b => a.offset ≤ b.offset

def table (subject : Text) (f : Findings) : Table where
  columns := [⟨"Offset".toList, Text.alignRight⟩, ⟨"Length".toList, Text.alignRight⟩,
    ⟨"Gap".toList, Text.alignRight⟩, ⟨"Text".toList, Text.alignLeft⟩]
  rows := f.sortedHits.map fun h =>
    [Text.ofInt h.offset, Text.ofInt h.length, Text.ofInt h.gap, h.slice subject]

/-- The verdict on a subject, and a table of the hits if there are any. -/
def report (subject : Text) (f : Findings) : Text :=
  Text.display ((if f.success then "MATCH ".toList else "NO MATCH ".toList) ++ subject) ++
    ['\n'] ++
    if f.hits = [] then [] else (f.table subject).render

end Findings

end FuzzyQuery
