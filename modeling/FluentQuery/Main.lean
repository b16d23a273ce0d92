/-
  The program: reads the words, the variables and the files of a command line, runs it, and prints
  what comes of it.
-/
import FluentQuery.CommandLine.Run

namespace FluentQuery

/-- What stands at a path; what cannot be read counts as nothing. -/
def look (path : Text) : IO Found := do
  try
    return .file (Text.ofChars (← IO.FS.readFile path.asString).toList)
  catch
    | .inappropriateType .. => return .folder
    | _ => return .nothing

/-- The variables that hold settings. -/
def readEnvironment : IO (List (Text × Text)) := do
  let found ← Settings.environmentNames.mapM fun (name, _) => do
    return (name, ← IO.getEnv name.asString)
  return found.filterMap fun (name, value) => value.map fun value => (name, Text.ofChars value.toList)

/-- What stands around a command line. -/
def surroundings (words : List Text) : IO CommandLine.Surroundings := do
  let files ← (CommandLine.filesOf words).mapM fun path => do return (path, ← look path)
  return { environment := ← readEnvironment
           found := fun path => (files.lookup path).getD .nothing }

/-- Runs the command line of these words and returns its exit status. -/
def runMain (words : List Text) : IO UInt32 := do
  match CommandLine.run (← surroundings words) words with
  | .ok outcome =>
    IO.print outcome.output.asString
    if outcome.failure ≠ [] then IO.eprintln outcome.failure.asString
    return outcome.status.toUInt32
  | .error _ =>
    IO.eprintln "The command broke off."
    return 1

end FluentQuery

def main (args : List String) : IO UInt32 :=
  FluentQuery.runMain (args.map fun arg => FluentQuery.Text.ofChars arg.toList)
