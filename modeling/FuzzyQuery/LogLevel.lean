import FuzzyQuery.Text.Blank
import FuzzyQuery.Text.LowerCase

/-!
# Log levels

A log level is chosen by its name or an alias of it, whatever the case of the letters and the
blanks around it. No name at all stands for the default, and so does a name that is not known, with
a warning.
-/

namespace FuzzyQuery

inductive LogLevel where
  | debug | info | warning | error
  deriving DecidableEq

structure UnknownLevel where
  name : Text
  deriving DecidableEq

namespace LogLevel

def name : LogLevel → Text
  | debug => "debug".toList
  | info => "info".toList
  | warning => "warning".toList
  | error => "error".toList

def severity : LogLevel → Nat
  | debug => 10
  | info => 20
  | warning => 30
  | error => 40

def default : LogLevel := warning

def named : List (Text × LogLevel) :=
  [debug, info, warning, error].map (fun l => (l.name, l)) ++
    [("warn".toList, warning), ("err".toList, error)]

def ofName? (name : Text) : Option LogLevel := named.lookup name

def choose (setting : Option Text) : LogLevel × Option UnknownLevel :=
  let name := ((setting.getD []).lowerCase).strip
  if name = [] then (default, none)
  else
    match ofName? name with
    | some level => (level, none)
    | none => (default, some ⟨name⟩)

/-- A choice made on the command line counts, unless it is empty; the environment comes second. -/
def select (option environment : Option Text) : LogLevel × Option UnknownLevel :=
  choose (if option.getD [] = [] then environment else option)

end LogLevel

def UnknownLevel.message (w : UnknownLevel) : Text :=
  "Unknown log level '".toList ++ w.name ++
    "'. Valid values: debug, info, warning, error. Defaulting to ".toList ++
    LogLevel.default.name ++ ['.']

end FuzzyQuery
