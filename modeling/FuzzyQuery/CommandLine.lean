import FuzzyQuery.LogLevel
import FuzzyQuery.Report

/-!
# Command line

The commands `match`, `parse` and `tokens`. A run exits with 0 when every subject matches, with 1
when some subject does not, and with 2 when the query or the command line is refused.
-/

namespace FuzzyQuery

structure Response where
  exit : Nat
  out : Text
  err : Text
  deriving DecidableEq

inductive Command where
  | test (query : Text) (subjects : List Text) (asJson : Bool)
  | parse (query : Text) (asJson : Bool)
  | tokens (query : Text)
  deriving DecidableEq

namespace Command

def refuse (e : QueryError) : Response := ⟨2, e.report, []⟩

/-- Executes the matcher on one subject after another, each time with new findings. -/
def results (m : Matcher) : List Text → Matcher.Run (List (Text × Findings))
  | [] => ⟨.ok [], m, []⟩
  | subject :: subjects =>
    let run := m.execute subject .empty
    match run.result with
    | .error e => ⟨.error e, run.matcher, run.events⟩
    | .ok found =>
      let more := results run.matcher subjects
      ⟨more.result.map ((subject, found) :: ·), more.matcher, run.events ++ more.events⟩

def reportResults (asJson : Bool) (results : List (Text × Findings)) : Text :=
  if asJson then
    Json.write .ascii (.array (results.map fun (subject, f) => f.toJson subject)) ++ ['\n']
  else results.flatMap fun (subject, f) => f.report subject

def logLines (level : LogLevel) (events : List Event) : Text :=
  if level = .debug then
    Text.unlines (events.map fun e => "DEBUG termquery.core.interpreter: ".toList ++ e.message)
  else []

def run (level : LogLevel) : Command → Response
  | .test query subjects asJson =>
    let compiled := (Matcher.ofText query).compile
    match compiled.result with
    | .error e => { refuse e with err := logLines level compiled.events }
    | .ok _ =>
      let executed := results compiled.matcher subjects
      let err := logLines level (compiled.events ++ executed.events)
      match executed.result with
      -- An error that comes only now would not be reported. A matcher that is compiled has none.
      | .error _ => ⟨1, [], err⟩
      | .ok results =>
        ⟨if results.all (·.2.success) then 0 else 1, reportResults asJson results, err⟩
  | .parse query asJson =>
    match FuzzyQuery.parse query with
    | .error e => refuse e
    | .ok tree =>
      ⟨0, (if asJson then tree.toJson.write .unicode else tree.render) ++ ['\n'], []⟩
  | .tokens query =>
    match tokenize query with
    | .error e => refuse e
    | .ok list => ⟨0, Text.unlines (list.map Token.report), []⟩

end Command

structure Invocation where
  logLevel : Option Text
  command : Command
  deriving DecidableEq

inductive UsageError where
  | missingCommand
  | unknownCommand (name : Text)
  | unknownOption (name : Text)
  | missingValue (option : Text)
  | missingArgument (name : Text)
  | extraArgument (value : Text)
  deriving DecidableEq

def UsageError.message : UsageError → Text
  | missingCommand => "Missing command.".toList
  | unknownCommand name => "No such command '".toList ++ name ++ "'.".toList
  | unknownOption name => "No such option: ".toList ++ name
  | missingValue option => "Option '".toList ++ option ++ "' requires an argument.".toList
  | missingArgument name => "Missing argument '".toList ++ name ++ "'.".toList
  | extraArgument value => "Got unexpected extra argument (".toList ++ value ++ ").".toList

namespace Invocation

def isOption (arg : Text) : Bool := "-".toList.isPrefixOf arg && 1 < arg.length

/-- Tells options from positional arguments; behind `--` everything is positional. -/
def partition : List Text → List Text × List Text
  | [] => ([], [])
  | arg :: args =>
    if arg = "--".toList then ([], args)
    else
      let (options, positional) := partition args
      if isOption arg then (arg :: options, positional) else (options, arg :: positional)

def flag (name : Option Text) : List Text → Except UsageError Bool
  | [] => .ok false
  | option :: options =>
    if name = some option then (flag name options).map fun _ => true
    else .error (.unknownOption option)

def theQuery : List Text → Except UsageError Text
  | [] => .error (.missingArgument "QUERY".toList)
  | [query] => .ok query
  | _ :: extra :: _ => .error (.extraArgument extra)

def readCommand (name : Text) (args : List Text) : Except UsageError Command :=
  let (options, positional) := partition args
  if name = "match".toList then do
    let asJson ← flag (some "--json".toList) options
    match positional with
    | [] => .error (.missingArgument "QUERY".toList)
    | [_] => .error (.missingArgument "SUBJECTS...".toList)
    | query :: subjects => .ok (.test query subjects asJson)
  else if name = "parse".toList then do
    let asJson ← flag (some "--json".toList) options
    let query ← theQuery positional
    return .parse query asJson
  else if name = "tokens".toList then do
    let _ ← flag none options
    let query ← theQuery positional
    return .tokens query
  else .error (.unknownCommand name)

def ofPositional (logLevel : Option Text) : List Text → Except UsageError Invocation
  | [] => .error .missingCommand
  | name :: args => (readCommand name args).map (⟨logLevel, ·⟩)

/-- Reads the options before the command, then the command. Of repeated options the last one
counts, and behind `--` no more of them are looked for. -/
def ofArgs (logLevel : Option Text) : List Text → Except UsageError Invocation
  | [] => .error .missingCommand
  | arg :: args =>
    if arg = "--".toList then ofPositional logLevel args
    else if arg = "--log-level".toList then
      match args with
      | [] => .error (.missingValue arg)
      | value :: args => ofArgs (some value) args
    else if "--log-level=".toList.isPrefixOf arg then
      ofArgs (some (arg.drop "--log-level=".length)) args
    else if isOption arg then .error (.unknownOption arg)
    else ofPositional logLevel (arg :: args)

def run (environment : Option Text) (i : Invocation) : Response :=
  let (level, warning) := LogLevel.select i.logLevel environment
  let response := i.command.run level
  { response with err := Text.unlines (warning.toList.map (·.message)) ++ response.err }

end Invocation

/-- The run of a whole command line, where `environment` is the log level that the environment
asks for. -/
def runArgs (args : List Text) (environment : Option Text) : Response :=
  match Invocation.ofArgs none args with
  | .error e => ⟨2, [], "Error: ".toList ++ e.message ++ ['\n']⟩
  | .ok i => i.run environment

end FuzzyQuery
