import DataflowPlan.CommandLine

/-!
The program: arguments, environment and file in, output and exit code out.
-/

namespace DataflowPlan.Main

/-- The variables that give settings. -/
def settingNames : List String :=
  ["STAGEPLAN_PAGE_SIZE", "STAGEPLAN_BROADCAST_PAGE_SIZE", "STAGEPLAN_SHUFFLE_PAGE_SIZE",
   "STAGEPLAN_BROADCAST_JOIN_THRESHOLD", "STAGEPLAN_SOURCE_PENALTY",
   "STAGEPLAN_PARTITION_TO_CORE_RATIO"]

/-- The variables that are set. -/
def environment : IO Environment :=
  settingNames.filterMapM fun name => do
    pure ((← IO.getEnv name).map fun value => (name, value))

def usage : String :=
  "usage: validate|explain|simulate --job FILE [options]\n"

/-- What the arguments ask for; a file that cannot be read fails as a job does. -/
def outcome (arguments : List String) : IO Outcome := do
  match Invocation.ofArguments? arguments with
  | none => pure ⟨2, "", usage⟩
  | some (.help topic) => pure ⟨0, topic.text, ""⟩
  | some (.command command job) =>
    match ← (IO.FS.readFile job).toBaseIO with
    | .ok text => pure (command.run (← environment) text)
    | .error error => pure ⟨1, "", command.errorHead ++ toString error ++ "\n"⟩

end DataflowPlan.Main

def main (arguments : List String) : IO UInt32 := do
  let result ← DataflowPlan.Main.outcome arguments
  IO.print result.output
  IO.eprint result.errors
  pure result.code.toUInt32
