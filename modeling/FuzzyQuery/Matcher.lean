import FuzzyQuery.Session
import FuzzyQuery.Tree.Evaluate

/-!
# Matchers

A matcher holds a query and, once it has been compiled, the tree of it. Compiling a second time
gives the same tree again, also when the query has been replaced meanwhile.
-/

namespace FuzzyQuery

inductive Event where
  | compiled (query : Text) (tree : Tree)
  | failed (query : Text) (fault : Fault)
  deriving DecidableEq

def Event.message : Event → Text
  | compiled query tree =>
    "Compiled query ".toList ++ query.literal ++ " -> ".toList ++ tree.render
  | failed query fault =>
    "Failed to compile query ".toList ++ query.literal ++ ": ".toList ++ fault.message

structure Matcher where
  query : Text
  tree : Option Tree
  deriving DecidableEq

namespace Matcher

def ofText (query : Text) : Matcher := ⟨query, none⟩

/-- Replaces the query; a tree that was compiled before stays. -/
def setQuery (query : Text) (m : Matcher) : Matcher := { m with query }

def isCompiled (m : Matcher) : Bool := m.tree.isSome

structure Run (α : Type) where
  result : Except QueryError α
  matcher : Matcher
  events : List Event

def compile (m : Matcher) : Run Tree :=
  match m.tree with
  | some tree => ⟨.ok tree, m, []⟩
  | none =>
    match parse m.query with
    | .ok tree => ⟨.ok tree, { m with tree := some tree }, [.compiled m.query tree]⟩
    | .error e => ⟨.error e, m, [.failed m.query e.fault]⟩

/-- Evaluates the query on a subject and adds to the findings given; there are none if the query
does not compile. -/
def execute (subject : Text) (f : Findings) (m : Matcher) : Run Findings :=
  let run := m.compile
  ⟨run.result.map fun tree => tree.search subject f, run.matcher, run.events⟩

def describe (m : Matcher) : Text :=
  "Interpreter(".toList ++ m.query.literal ++ ", compiled=".toList ++
    (if m.isCompiled then "True".toList else "False".toList) ++ [')']

end Matcher

def findMatches (query subject : Text) : Except QueryError Findings :=
  ((Matcher.ofText query).execute subject .empty).result

end FuzzyQuery
