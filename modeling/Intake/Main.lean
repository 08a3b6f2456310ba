import Intake.Launch

/-!
# The program

Gathers what a run depends on, lets `Launch.run` decide, and says how the run ended. The
library has no listener, so a run that would serve says so and ends.
-/

namespace Intake.Main

/-- The environment variables that count. -/
def variableNames : List String :=
  "XDG_CONFIG_HOME" :: "HOME" :: Launch.envNames.map Prod.fst

/-- The variables that are set. -/
def environment : IO (List (String × String)) := do
  let values ← variableNames.mapM fun name => do
    return (name, ← IO.getEnv name)
  return values.filterMap fun (name, value) => value.map fun v => (name, v)

/-- The content of a file, if it can be read. -/
def content? (path : String) : IO (Option Bytes) := do
  try
    let bytes ← IO.FS.readBinFile path
    return some bytes.toList
  catch _ => return none

end Intake.Main

/-- Runs the program and returns its exit code. -/
def main (args : List String) : IO UInt32 := do
  let env ← Intake.Main.environment
  let files ← (Intake.Launch.paths args env).mapM fun path => do
    return (path, ← Intake.Main.content? path)
  let content (path : String) : Option Intake.Bytes :=
    ((files.find? (·.1 == path)).map Prod.snd).join
  match Intake.Launch.run args env content (Intake.Launch.userPath? env) fun _ => true with
  | .printed text =>
    IO.print text
    return 0
  | .misuse =>
    IO.eprintln ("error: see '" ++ Intake.Product.name ++ " --help'")
    return 2
  | .failed chain =>
    IO.eprintln (Intake.Launch.failureText chain)
    return 1
  | .serving address _ =>
    IO.eprintln ("Error: no listener for http://" ++ address.write)
    return 1
