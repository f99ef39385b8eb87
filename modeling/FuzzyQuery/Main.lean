import FuzzyQuery.CommandLine

/-!
# The program

Reads the arguments and the environment, and writes what the run leaves.
-/

def main (args : List String) : IO UInt32 := do
  let environment ← IO.getEnv "TERMQUERY_LOG_LEVEL"
  let response := FuzzyQuery.runArgs (args.map String.toList) (environment.map String.toList)
  (← IO.getStderr).putStr (String.ofList response.err)
  (← IO.getStdout).putStr (String.ofList response.out)
  return response.exit.toUInt32
