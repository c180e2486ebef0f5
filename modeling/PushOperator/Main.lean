import PushOperator.CommandLine
import PushOperator.Json.Text

/-!
# The program

Reads the settings from the command line and the environment and prints those that the operator is
to run with. The exit code is 2 when they can not be read and 1 when they can not be used.
-/

open PushOperator

def settingVariables : IO (List (String × String)) :=
  Setting.all.filterMapM fun setting => do
    return (← IO.getEnv setting.variableName).map (setting.variableName, ·)

/-- Prints the settings, or what is asked for instead, or why there are none. -/
def main (arguments : List String) : IO UInt32 := do
  let environment ← settingVariables
  match Settings.parse arguments (List.lookup · environment) with
  | .error .versionRequested =>
    IO.println CommandLineError.versionRequested.message
    return 0
  | .error .helpRequested =>
    IO.println CommandLineError.helpRequested.message
    return 0
  | .error error =>
    IO.eprintln error.message
    return 2
  | .ok settings =>
    match settings.validate with
    | .error error =>
      IO.eprintln error.message
      return 1
    | .ok _ =>
      IO.println (toJson settings).compact
      return 0
