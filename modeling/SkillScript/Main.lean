import SkillScript.CommandLine

/-!
# The program

Reads the files that the arguments name, prints the answer and sets the exit code.
-/

namespace SkillScript

/-- The text of a file, or nothing when it cannot be read. -/
def readText? (path : String) : IO (Option String) := do
  try
    return some (← IO.FS.readFile path)
  catch _ => return none

/-- The files that the arguments ask for, with their texts. -/
def readFiles (args : List String) : IO (List (String × Option String)) := do
  match Options.parse? {} none args with
  | some (.query q) => q.paths.mapM fun path => do return (path, ← readText? path)
  | _ => return []

end SkillScript

open SkillScript in
/-- Answers one query. -/
def main (args : List String) : IO UInt32 := do
  let files ← readFiles args
  let outcome := runCommandLine (fun path => (files.lookup path).join) args
  IO.print outcome.output
  return outcome.exitCode.toUInt32
