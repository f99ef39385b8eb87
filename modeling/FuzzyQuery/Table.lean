import FuzzyQuery.Text

/-!
# Tables

A table is drawn with heavy lines around its header and light lines around its rows. Every column
is as wide as its longest cell, with one space on either side.
-/

namespace FuzzyQuery

structure Table.Column where
  header : Text
  align : Nat → Text → Text

structure Table where
  columns : List Table.Column
  rows : List (List Text)

namespace Table

def widths (t : Table) : List Nat :=
  t.rows.foldl (fun ws row => ws.zipWith (fun w cell => max w cell.length) row)
    (t.columns.map (·.header.length))

def rule (left fill joint right : Char) (widths : List Nat) : Text :=
  left :: [joint].intercalate (widths.map fun w => List.replicate (w + 2) fill) ++ [right]

def line (t : Table) (bar : Char) (cells : List Text) : Text :=
  let aligned := (t.columns.zip t.widths).zipWith (fun (c, w) cell => c.align w cell) cells
  bar :: [bar].intercalate (aligned.map fun cell => ' ' :: cell ++ [' ']) ++ [bar]

def render (t : Table) : Text :=
  Text.unlines <|
    [rule '┏' '━' '┳' '┓' t.widths, t.line '┃' (t.columns.map Column.header),
      rule '┡' '━' '╇' '┩' t.widths] ++
    t.rows.map (t.line '│') ++ [rule '└' '─' '┴' '┘' t.widths]

end Table

end FuzzyQuery
