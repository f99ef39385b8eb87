import FuzzyQuery.CommandLine
import FuzzyQuery.Proofs.Matcher
import FuzzyQuery.Proofs.Terms

/-!
# Commands that are asked for

However a command is asked for, it exits with 2 exactly when its query cannot be read, and the error
is all that it writes.

The command that matches a query compiles it once and executes the one matcher on every subject.
Each subject gets the result that it gets alone, and a query that does not parse is reported before
any subject is looked at.
-/

namespace FuzzyQuery

def Asks (command : Command) (args : List Text) : Prop :=
  ∃ level, Invocation.ofArgs none args = .ok ⟨level, command⟩

def AsksMatch (query : Text) (subjects : List Text) (asJson : Bool) (args : List Text) : Prop :=
  ∃ level, Invocation.ofArgs none args = .ok ⟨level, .test query subjects asJson⟩

variable {command : Command} {query : Text} {subjects : List Text} {asJson : Bool}
  {args : List Text} {tree : Tree} {e : QueryError}

namespace Command

/-- Whatever subjects came before, the next one is matched with the same tree and new findings. -/
theorem results_of_tree {m : Matcher} (h : m.tree = some tree) (subjects : List Text) :
    results m subjects = ⟨.ok (subjects.map fun s => (s, tree.search s .empty)), m, []⟩ := by
  induction subjects with
  | nil => rfl
  | cons subject subjects ih =>
    simp only [results, Matcher.execute_of_tree h, ih, Except.map, List.map_cons, List.append_nil]

theorem run_test_of_error (h : FuzzyQuery.parse query = .error e) (level : LogLevel) :
    (test query subjects asJson).run level =
      ⟨2, e.report, logLines level [.failed query e.fault]⟩ := by
  have hcompile : (Matcher.ofText query).compile = _ := Matcher.compile_of_error rfl h
  simp only [run, hcompile]
  rfl

theorem run_test_of_parse (h : FuzzyQuery.parse query = .ok tree) (level : LogLevel) :
    let results := subjects.map fun s => (s, tree.search s .empty)
    (test query subjects asJson).run level =
      ⟨if results.all (·.2.success) then 0 else 1, reportResults asJson results,
        logLines level [.compiled query tree]⟩ := by
  have hcompile : (Matcher.ofText query).compile = _ := Matcher.compile_of_parse rfl h
  have hresults : results ⟨(Matcher.ofText query).query, some tree⟩ subjects = _ :=
    results_of_tree rfl subjects
  simp only [run, hcompile, hresults]
  rfl

/-- The command cannot read its query: matching and parsing need a tree, listing needs tokens. -/
def FailsWith (e : QueryError) : Command → Prop
  | test query _ _ | parse query _ => FuzzyQuery.parse query = .error e
  | tokens query => tokenize query = .error e

theorem run_of_failsWith (h : command.FailsWith e) (level : LogLevel) :
    (command.run level).exit = 2 ∧ (command.run level).out = e.report := by
  cases command with
  | test query subjects asJson =>
    rw [run_test_of_error h]
    exact ⟨rfl, rfl⟩
  | parse query asJson =>
    have hparse : FuzzyQuery.parse query = .error e := h
    simp only [run, hparse, refuse, and_self]
  | tokens query =>
    have htokenize : tokenize query = .error e := h
    simp only [run, htokenize, refuse, and_self]

/-- Nothing but the query makes a command that was understood exit with 2. -/
theorem exists_failsWith {level : LogLevel} (h : (command.run level).exit = 2) :
    ∃ e, command.FailsWith e := by
  cases command with
  | test query subjects asJson =>
    cases hparse : FuzzyQuery.parse query with
    | error e => exact ⟨e, hparse⟩
    | ok tree =>
      rw [run_test_of_parse hparse] at h
      dsimp only at h
      split at h
      · cases h
      · cases h
  | parse query asJson =>
    cases hparse : FuzzyQuery.parse query with
    | error e => exact ⟨e, hparse⟩
    | ok tree =>
      simp only [run, hparse] at h
      cases h
  | tokens query =>
    cases htokenize : tokenize query with
    | error e => exact ⟨e, htokenize⟩
    | ok tokens =>
      simp only [run, htokenize] at h
      cases h

end Command

namespace Asks

/-- The log level has a part in what is written to the other stream only. -/
theorem runArgs_eq (h : Asks command args) (environment : Option Text) :
    ∃ level, let r := command.run level
      (runArgs args environment).exit = r.exit ∧ (runArgs args environment).out = r.out := by
  obtain ⟨level, hargs⟩ := h
  refine ⟨(LogLevel.select level environment).1, ?_⟩
  simp only [runArgs, hargs]
  exact ⟨rfl, rfl⟩

theorem refused (h : Asks command args) (hfails : command.FailsWith e)
    (environment : Option Text) :
    (runArgs args environment).exit = 2 ∧ (runArgs args environment).out = e.report := by
  obtain ⟨level, hexit, hout⟩ := h.runArgs_eq environment
  obtain ⟨hexit', hout'⟩ := Command.run_of_failsWith hfails level
  exact ⟨hexit.trans hexit', hout.trans hout'⟩

theorem exit_eq_two_iff (h : Asks command args) (environment : Option Text) :
    (runArgs args environment).exit = 2 ↔ ∃ e, command.FailsWith e := by
  constructor
  · intro htwo
    obtain ⟨level, hexit, -⟩ := h.runArgs_eq environment
    exact Command.exists_failsWith (hexit.symm.trans htwo)
  · rintro ⟨e, he⟩
    exact (h.refused he environment).1

end Asks

/-- One way to ask for a match: behind the dashes the query and the subjects may be any text. -/
def matchArgs (query : Text) (subjects : List Text) (asJson : Bool) : List Text :=
  "match".toList ::
    ((if asJson then ["--json".toList] else []) ++ "--".toList :: query :: subjects)

theorem asksMatch_matchArgs (query : Text) (h : subjects ≠ []) (asJson : Bool) :
    AsksMatch query subjects asJson (matchArgs query subjects asJson) := by
  obtain ⟨subject, subjects, rfl⟩ := List.exists_cons_of_ne_nil h
  cases asJson with
  | true => exact ⟨none, rfl⟩
  | false => exact ⟨none, rfl⟩

namespace AsksMatch

theorem asks (h : AsksMatch query subjects asJson args) :
    Asks (.test query subjects asJson) args := h

theorem refused (h : AsksMatch query subjects asJson args) (hparse : parse query = .error e)
    (environment : Option Text) :
    (runArgs args environment).exit = 2 ∧ (runArgs args environment).out = e.report :=
  h.asks.refused hparse environment

theorem reported (h : AsksMatch query subjects asJson args) (hparse : parse query = .ok tree)
    (environment : Option Text) :
    (runArgs args environment).exit =
        (if ∀ s ∈ subjects, (tree.search s .empty).success = true then 0 else 1) ∧
      (runArgs args environment).out =
        Command.reportResults asJson (subjects.map fun s => (s, tree.search s .empty)) := by
  obtain ⟨level, hexit, hout⟩ := h.asks.runArgs_eq environment
  rw [Command.run_test_of_parse hparse] at hexit hout
  refine ⟨hexit.trans ?_, hout⟩
  simp only [List.all_map, List.all_eq_true, Function.comp_apply]

end AsksMatch

end FuzzyQuery
