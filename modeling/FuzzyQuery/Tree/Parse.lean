import FuzzyQuery.Fault
import FuzzyQuery.Tree

/-!
# From tokens to a tree

An operand is a negation, a group or a term. Operands that follow one another without an operator
are joined by an implicit `|` from the right; explicit operators are folded from the left, `&`
before `|`. One query uses one of the two styles throughout, and the first use settles which.

Every step leaves the tokens that it has not taken. A step that fails blames the first of these, or
the end of the query when none is left.
-/

namespace FuzzyQuery

inductive Style where
  | implicit | explicit
  deriving DecidableEq

def Style.name : Style → Text
  | implicit => "implicit".toList
  | explicit => "explicit".toList

def TokenKind.operator? : TokenKind → Option Operator
  | and => some .and
  | or => some .or
  | term | not | opening | closing => none

namespace Parse

/-- What a step comes to, with the style settled so far and the tokens that are left. -/
inductive Step where
  | read (tree : Tree) (style : Option Style) (rest : List Token)
  | stopped (fault : Fault) (style : Option Style) (rest : List Token)
  deriving DecidableEq

namespace Step

def style : Step → Option Style
  | read _ style _ | stopped _ style _ => style

def rest : Step → List Token
  | read _ _ rest | stopped _ _ rest => rest

def map (f : Tree → Tree) : Step → Step
  | read tree style rest => read (f tree) style rest
  | stopped fault style rest => stopped fault style rest

end Step

def unexpected (style : Option Style) (tokens : List Token) : Step :=
  .stopped (.unexpectedToken tokens.head?) style tokens

/-- Goes on with `f` when fewer than `bound` tokens are left. Every step that reads a tree takes a
token, so the test never fails; it is there for the recursion below to be seen to end. -/
def Step.andThen (step : Step) (bound : Nat)
    (f : Tree → Option Style → (rest : List Token) → rest.length < bound → Step) : Step :=
  match step with
  | .read tree style rest =>
    if h : rest.length < bound then f tree style rest h else unexpected style rest
  | .stopped fault style rest => .stopped fault style rest

def close (tree : Tree) (style : Option Style) : List Token → Step
  | t :: rest =>
    if t.kind = .closing then .read tree style rest
    else .stopped (.expectedPunctuation TokenKind.closing.symbol) style (t :: rest)
  | [] => .stopped (.expectedPunctuation TokenKind.closing.symbol) style []

def permits (style : Option Style) (used : Style) : Bool := style.all (· = used)

mutual

def primary (style : Option Style) : List Token → Step
  | [] => unexpected style []
  | t :: rest =>
    match t.kind with
    | .term => .read (.term t.value) style rest
    | .not => (primary style rest).map .not
    | .opening => (expression style rest).andThen rest.length fun tree style rest _ =>
        close tree style rest
    | .and | .or | .closing => unexpected style (t :: rest)
termination_by tokens => 3 * tokens.length

/-- A primary, and any operands that follow it without an operator. -/
def operand (style : Option Style) (tokens : List Token) : Step :=
  (primary style tokens).andThen tokens.length fun first style rest _ =>
    if rest.head?.any (·.kind.startsOperand) then
      if permits style .implicit then
        (operand (some .implicit) rest).map (.op .or first)
      else .stopped .mixedStyle style rest
    else .read first style rest
termination_by 3 * tokens.length + 1

/-- Folds the operators that bind more tightly than `bound` into `left`. -/
def climb (left : Tree) (bound : Nat) (style : Option Style) : List Token → Step
  | [] => .read left style []
  | t :: rest =>
    match t.kind.operator? with
    | none => .read left style (t :: rest)
    | some o =>
      if o.precedence ≤ bound then .read left style (t :: rest)
      else if permits style .explicit then
        (operand (some .explicit) rest).andThen rest.length fun next style more _ =>
          (climb next o.precedence style more).andThen (more.length + 1) fun right style more _ =>
            climb (.op o left right) bound style more
      else .stopped .mixedStyle style (t :: rest)
termination_by tokens => 3 * tokens.length

def expression (style : Option Style) (tokens : List Token) : Step :=
  (operand style tokens).andThen tokens.length fun left style rest _ =>
    climb left 0 style rest
termination_by 3 * tokens.length + 2

end

def query (tokens : List Token) : Step :=
  match expression none tokens with
  | .read tree style [] => .read tree style []
  | .read _ style (t :: rest) => unexpected style (t :: rest)
  | .stopped fault style rest => .stopped fault style rest

end Parse

end FuzzyQuery
