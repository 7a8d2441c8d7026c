/-
The program on a real machine: it collects what a run can find, runs, and carries out the result.

* `main` — the entry point.
-/
import Estimating.CommandLine.Run
import Std.Time.DateTime

set_option autoImplicit false

namespace Estimating.CommandLine

/-- The environment variables that matter to the program. -/
def relevantVariables : List String :=
  ["TAKEOFF_CONFIG", "TAKEOFF_SEED", "TAKEOFF_ADJUSTMENT_LOG"] ++ Setting.variableNames

/-- The environment variables that are set. -/
def readVariables : IO (List (String × String)) :=
  relevantVariables.filterMapM fun name => return (← IO.getEnv name).map fun value => (name, value)

/-- The text of a file, if it can be read. -/
def readText (path : String) : IO (Option String) := do
  try return some (← IO.FS.readFile path) catch _ => return none

/-- The files that the program may read. -/
def readFiles (s : Surroundings) (args : List String) : IO (List (String × String)) :=
  match Arguments.read s args with
  | .ok a => a.paths.filterMapM fun path => return (← readText path).map fun text => (path, text)
  | .error _ => return []

/-- A number nobody else has. -/
def randomNumber : IO Nat :=
  return (← IO.getRandomBytes 16).foldl (fun n b => n * 256 + b.toNat) 0

/-- The present time. -/
def readClock : IO Timestamp := do
  let t ← Std.Time.Timestamp.now
  return .ofUnixSeconds t.toSecondsSinceUnixEpoch.val t.val.nano.val.toNat

/-- What this run has that no other run has. -/
def readFresh : IO Fresh := do
  let n ← randomNumber
  return ⟨← readClock, fun i => .ofRandom (n + i), (EntryId.ofRandom (← randomNumber)).text⟩

end Estimating.CommandLine

open Estimating Estimating.CommandLine

/-- Runs the program. -/
def main (args : List String) : IO UInt32 := do
  let environment ← readVariables
  let files ← readFiles ⟨[], environment⟩ args
  let result := run ⟨files, environment⟩ (← readFresh) args
  IO.print result.output
  IO.eprint result.error
  if let some (path, text) := result.file then
    IO.FS.writeFile path text
  return result.status
