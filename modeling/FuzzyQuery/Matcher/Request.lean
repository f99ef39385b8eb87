import FuzzyQuery.Matcher
import Mathlib.Logic.Function.Basic

/-!
# Requests to a matcher

A matcher can be compiled, executed, looked at and given another query, in any order. Findings have
names, so that an execution can add to what earlier ones have found. Every request is answered from
the state that the one before it left, also when that one failed.
-/

namespace FuzzyQuery

namespace Matcher

inductive Target where
  /-- New findings, which have this name from then on. -/
  | fresh (name : Text)
  | held (name : Text)

inductive Request where
  | setQuery (query : Text)
  | compile
  | execute (subject : Text) (target : Target)
  | isCompiled
  | describe

inductive Answer where
  | done
  | tree (found : Tree)
  | findings (found : Findings)
  | isCompiled (compiled : Bool)
  | text (shown : Text)
  deriving DecidableEq

/-- A matcher together with the findings that it can be asked to add to. -/
structure Desk where
  matcher : Matcher
  findings : Text → Findings

structure Reply where
  answer : Except QueryError Answer
  events : List Event
  desk : Desk

namespace Desk

def supplied (d : Desk) : Target → Findings
  | .fresh _ => .empty
  | .held name => d.findings name

def store (d : Desk) (f : Findings) : Target → Desk
  | .fresh name | .held name => { d with findings := Function.update d.findings name f }

def ask (d : Desk) : Request → Reply
  | .setQuery query => ⟨.ok .done, [], { d with matcher := d.matcher.setQuery query }⟩
  | .compile =>
    let run := d.matcher.compile
    ⟨run.result.map .tree, run.events, { d with matcher := run.matcher }⟩
  | .execute subject target =>
    let run := d.matcher.execute subject (d.supplied target)
    let after : Desk := { d with matcher := run.matcher }
    match run.result with
    | .ok found => ⟨.ok (.findings found), run.events, after.store found target⟩
    | .error e => ⟨.error e, run.events, after⟩
  | .isCompiled => ⟨.ok (.isCompiled d.matcher.isCompiled), [], d⟩
  | .describe => ⟨.ok (.text d.matcher.describe), [], d⟩

def after (d : Desk) (requests : List Request) : Desk :=
  requests.foldl (fun d r => (d.ask r).desk) d

def log (d : Desk) : List Request → List Event
  | [] => []
  | r :: requests => (d.ask r).events ++ (d.ask r).desk.log requests

end Desk

end Matcher

end FuzzyQuery
