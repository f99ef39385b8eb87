import FuzzyQuery.Text
import FuzzyQuery.Text.Printable

/-!
# Literals

A literal shows a text on one line between quotes. Quotes, backslashes and unprintable characters
are escaped, so that the text can be told from its literal.
-/

namespace FuzzyQuery

namespace Text

/-- Apostrophes enclose a literal, unless the text holds an apostrophe and no quotation mark. -/
def literalQuote (t : Text) : Char := if '\'' ∈ t ∧ '"' ∉ t then '"' else '\''

def escapeCodePoint (n : Nat) : Text :=
  if n < 0x100 then '\\' :: 'x' :: hex 2 n
  else if n < 0x10000 then '\\' :: 'u' :: hex 4 n
  else '\\' :: 'U' :: hex 8 n

def literalChar (quote c : Char) : Text :=
  if c = quote ∨ c = '\\' then ['\\', c]
  else if c = '\t' then ['\\', 't']
  else if c = '\n' then ['\\', 'n']
  else if c = '\r' then ['\\', 'r']
  else if isPrintable c then [c]
  else escapeCodePoint c.toNat

def literal (t : Text) : Text :=
  let quote := literalQuote t
  quote :: t.flatMap (literalChar quote) ++ [quote]

end Text

end FuzzyQuery
