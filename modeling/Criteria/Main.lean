import Criteria.CommandLine.Run

/-!
# The program

The outer layer of the command line: it reads the arguments, the environment and the files that an
invocation names, and prints what the command answers. Failures go to standard error.
-/

namespace Criteria.CommandLine

/-- The contents of a file, if it can be read. -/
def readFile? (path : String) : IO (Option String) := do
  try
    return some (← IO.FS.readFile path)
  catch _ =>
    return none

/-- The values of the variables that a configuration depends on. -/
def readEnvironment : IO Environment := do
  let names :=
    [configVariable, Config.adapterVariable, Config.backendVariable, Config.levelVariable]
  let values ← names.mapM fun name => do return (name, ← IO.getEnv name)
  return fun name => (values.lookup name).join

/-- The contents of the files that an invocation may read. -/
def readFiles (invocation : Invocation) : IO Files := do
  let contents ← invocation.paths.mapM fun path => do return (path, ← readFile? path)
  return fun path => (contents.lookup path).join

/-- Says why no command was started. Asking for help or the version is no failure. -/
def reportStop (stop : Stop) : IO UInt32 := do
  if stop = .help || stop = .version then
    IO.println stop.message
    return 0
  else
    IO.eprintln stop.message
    return 2

/-- Runs an invocation and prints its answer. -/
def execute (environment : Environment) (invocation : Invocation) : IO UInt32 := do
  let files ← readFiles invocation
  match invocation.run files environment with
  | .ok output =>
    IO.print output.text
    return 0
  | .error failure =>
    IO.eprintln ("Error: " ++ failure.message)
    return 1

end Criteria.CommandLine

/-- Runs the command that the arguments name. -/
def main (arguments : List String) : IO UInt32 := do
  let environment ← Criteria.CommandLine.readEnvironment
  let configured := environment Criteria.CommandLine.configVariable
  match Criteria.CommandLine.Invocation.parse configured arguments with
  | .ok invocation => Criteria.CommandLine.execute environment invocation
  | .error stop => Criteria.CommandLine.reportStop stop
