import FuzzyQuery.Matcher

/-!
# Requests on findings

Findings can be recorded into, looked at, and handed to evaluations and to any number of matchers,
in any order. Every request is answered from the findings that the one before it left, also when
that one failed.
-/

namespace FuzzyQuery

namespace Findings

inductive Request where
  | record (category : Text) (hit : Hit)
  | hitsOf (category : Text)
  | contents
  /-- What is to be evaluated may turn out to be no tree. -/
  | evaluate (what : Except NotATree Tree) (subject : Text)
  /-- A matcher, compiled before or not, is executed on the findings. -/
  | execute (m : Matcher) (subject : Text)

inductive Answer where
  | stored (isNew : Bool)
  | hits (found : List Hit)
  | verdict (success : Bool)
  | findings (found : Findings)
  deriving DecidableEq

inductive Failure where
  | category (e : UnknownCategory)
  | notATree (e : NotATree)
  | query (e : QueryError)
  deriving DecidableEq

def ask (f : Findings) : Request → Except Failure Answer × Findings
  | .record category hit =>
    let r := f.record category hit
    ((r.1.mapError .category).map .stored, r.2)
  | .hitsOf category => (((f.hitsOf category).mapError .category).map .hits, f)
  | .contents => (.ok (.findings f), f)
  | .evaluate (.ok tree) subject =>
    let r := tree.evaluate subject f
    (.ok (.verdict r.1), r.2)
  | .evaluate (.error e) _ => (.error (.notATree e), f)
  | .execute m subject =>
    match (m.execute subject f).result with
    | .ok found => (.ok (.findings found), found)
    | .error e => (.error (.query e), f)

def after (f : Findings) (requests : List Request) : Findings :=
  requests.foldl (fun f r => (f.ask r).2) f

end Findings

end FuzzyQuery
