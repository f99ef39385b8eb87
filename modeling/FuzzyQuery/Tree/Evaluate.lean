import FuzzyQuery.Findings
import FuzzyQuery.Tree

/-!
# Evaluating a query

A term matches where a prefix of it stands that lacks no more characters than are tolerated; the
longest such prefix counts, at its leftmost place. Both sides of every operator are evaluated, so
each term that matches leaves its hit.
-/

namespace FuzzyQuery

def hitWithGap? (value subject : Text) (gap : Nat) : Option Hit :=
  let candidate := value.take (value.length - gap)
  (subject.indexOf? candidate).map fun i => ⟨i, candidate.length, gap⟩

def hit? (value subject : Text) : Option Hit :=
  (List.range (tolerance value + 1)).findSome? (hitWithGap? value subject)

def Operator.apply : Operator → Bool → Bool → Bool
  | and => Bool.and
  | or => Bool.or

namespace Tree

def evaluate (subject : Text) : Tree → Findings → Bool × Findings
  | term value, f =>
    match hit? value subject with
    | some h => (true, f.insert h)
    | none => (false, f)
  | not inner, f =>
    let r := inner.evaluate subject f
    (!r.1, r.2)
  | op operator left right, f =>
    let l := left.evaluate subject f
    let r := right.evaluate subject l.2
    (operator.apply l.1 r.1, r.2)

def search (subject : Text) (t : Tree) (f : Findings) : Findings :=
  let r := t.evaluate subject f
  { r.2 with success := r.1 }

end Tree

/-- Something to be evaluated that is no tree, of which only the name of its type is known. -/
structure NotATree where
  typeName : Text
  deriving DecidableEq

def NotATree.message (e : NotATree) : Text := "Unknown query node type: ".toList ++ e.typeName

end FuzzyQuery
