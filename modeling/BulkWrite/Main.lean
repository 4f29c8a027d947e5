import BulkWrite.CommandLine.Run

/-!
The program: prints what the arguments ask for. It has no databases of its own.
-/
namespace BulkWrite.CommandLine

def readEnvironment : IO (List (String × String)) :=
  (commonOptions.filterMap OptionName.environmentName?).filterMapM fun name =>
    return (← IO.getEnv name).map fun value => (name, value)

def localBackend : Backend IO where
  connect database := return .error (.failed ("no connection to " ++ database))
  jsonFault _ := "the text cannot be read"
  causes _ := ""

def report (outcome : Outcome) : IO UInt32 := do
  IO.print outcome.stdout
  IO.eprint outcome.stderr
  return .ofNat outcome.code

end BulkWrite.CommandLine

def main (args : List String) : IO UInt32 := do
  let environment ← BulkWrite.CommandLine.readEnvironment
  match BulkWrite.CommandLine.Call.parse? environment args with
  | some call => call.run BulkWrite.CommandLine.localBackend >>= BulkWrite.CommandLine.report
  | none =>
    IO.eprintln "usage: (compile | upsert | insert-ignore) --table T --rows JSON [options]"
    return 2
