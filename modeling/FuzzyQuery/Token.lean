import FuzzyQuery.Text.Literal

/-!
# Tokens

A query is read as a sequence of tokens: terms, the operators `!`, `&` and `|`, and parentheses.
A token keeps its value and the position at which it starts.
-/

namespace FuzzyQuery

inductive TokenKind where
  | term | not | and | or | opening | closing
  deriving DecidableEq

namespace TokenKind

def name : TokenKind → Text
  | term => "term".toList
  | not => "not".toList
  | and => "and".toList
  | or => "or".toList
  | opening => "lparen".toList
  | closing => "rparen".toList

/-- How a kind is shown by a table that has no entry for it. -/
def key (kind : TokenKind) : Text :=
  "<TokenKind.".toList ++ kind.name.map Char.toUpper ++ ": ".toList ++ kind.name.literal ++ ['>']

def ofSymbol? : Char → Option TokenKind
  | '!' => some not
  | '&' => some and
  | '|' => some or
  | '(' => some opening
  | ')' => some closing
  | _ => none

def symbol : TokenKind → Text
  | term => []
  | not => ['!']
  | and => ['&']
  | or => ['|']
  | opening => ['(']
  | closing => [')']

def startsOperand : TokenKind → Bool
  | term | not | opening => true
  | and | or | closing => false

theorem ofSymbol?_eq_some_iff {c : Char} {kind : TokenKind} :
    ofSymbol? c = some kind ↔ kind.symbol = [c] := by
  constructor
  · intro h
    simp only [ofSymbol?] at h
    split at h <;> simp_all [symbol] <;> subst h <;> rfl
  · intro h
    cases kind <;> simp [symbol] at h <;> subst h <;> rfl

end TokenKind

structure Token where
  kind : TokenKind
  value : Text
  pos : Nat
  deriving DecidableEq

namespace Token

def describe (t : Token) : Text :=
  "Token(".toList ++ t.kind.name ++ ", ".toList ++ t.value.literal ++ ", pos=".toList ++
    Text.ofNat t.pos ++ ")".toList

end Token

end FuzzyQuery
