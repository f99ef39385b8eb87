import FuzzyQuery.Text.Quoted
import FuzzyQuery.Word

/-!
# Query trees

A query is a term, the negation of a query, or two queries joined by an operator. A tree is
rendered with every group in parentheses, and with quotes around the terms that are not words.
-/

namespace FuzzyQuery

inductive Operator where
  | and | or
  deriving DecidableEq

def Operator.precedence : Operator → Nat
  | or => 1
  | and => 2

def Operator.symbol : Operator → Char
  | and => '&'
  | or => '|'

inductive Tree where
  | term (value : Text)
  | not (inner : Tree)
  | op (operator : Operator) (left right : Tree)
  deriving DecidableEq

/-- How many characters may be missing at the end of a term: a quarter of them, rounded up. -/
def tolerance (value : Text) : Nat := (value.length + 3) / 4

def renderTerm (value : Text) : Text := if value.isWord then value else Quoted.encode value

namespace Tree

def render : Tree → Text
  | term value => renderTerm value
  | not inner => '!' :: inner.render
  | op operator left right =>
    '(' :: left.render ++ [' ', operator.symbol, ' '] ++ right.render ++ [')']

def terms : Tree → List Text
  | term value => [value]
  | not inner => inner.terms
  | op _ left right => left.terms ++ right.terms

end Tree

end FuzzyQuery
