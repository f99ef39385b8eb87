import FuzzyQuery.Token

/-!
# Faults

A fault is the cause for which a query is refused. An error adds the position that is blamed and,
when the query is known, an excerpt that marks it.
-/

namespace FuzzyQuery

inductive Stage where
  | lexical | syntactic
  deriving DecidableEq

inductive Fault where
  /-- `found` is empty at the end of the query. -/
  | unexpectedCharacter (found : Text)
  /-- `found` is missing when the query ends too early. -/
  | unexpectedToken (found : Option Token)
  | expectedPunctuation (expected : Text)
  | mixedStyle
  /-- A fault known by its wording only. -/
  | other (stage : Option Stage) (wording : Text)
  deriving DecidableEq

namespace Fault

def stage : Fault → Option Stage
  | unexpectedCharacter _ => some .lexical
  | unexpectedToken _ | expectedPunctuation _ | mixedStyle => some .syntactic
  | other stage _ => stage

def message : Fault → Text
  | unexpectedCharacter found => "Unexpected character: ".toList ++ found.literal
  | unexpectedToken none => "Unexpected end of input".toList
  | unexpectedToken (some t) =>
    "Unexpected token: ".toList ++ t.kind.name ++ " (".toList ++ t.value.literal ++ [')']
  | expectedPunctuation expected => "Expecting punctuation: \"".toList ++ expected ++ ['"']
  | mixedStyle => "Cannot mix implicit operators with explicit '&' or '|' in one query".toList
  | other _ wording => wording

end Fault

structure Excerpt where
  source : Text
  position : Int
  deriving DecidableEq

def Excerpt.render (e : Excerpt) : Text :=
  Text.spaces 2 ++ e.source ++ ['\n'] ++ Text.spaces (e.position + 2).toNat ++ ['^']

structure QueryError where
  fault : Fault
  position : Int
  excerpt : Option Excerpt
  deriving DecidableEq

namespace QueryError

def ofSource (source : Text) (fault : Fault) (position : Nat) : QueryError :=
  ⟨fault, position, some ⟨source, position⟩⟩

def message (e : QueryError) : Text := e.fault.message

def render (e : QueryError) : Text :=
  e.message ++ " (".toList ++ Text.ofInt e.position ++ [')'] ++
    match e.excerpt with
    | none => []
    | some x => '\n' :: x.render

end QueryError

end FuzzyQuery
