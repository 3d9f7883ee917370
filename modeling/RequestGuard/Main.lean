import RequestGuard.Console.Action
import RequestGuard.Settings.Reading
import RequestGuard.Settings.Summary
import RequestGuard.Text.UniqueId
import Std.Time.DateTime.Timestamp

open RequestGuard

-- The command line of the operators. No shared store can be reached from here, so commands
-- that need one tell so.

def readVariables : IO (List (String × String)) := do
  let values ← Settings.variableNames.mapM fun name => return (name, ← IO.getEnv name)
  return values.filterMap fun (name, value) => value.map (name, ·)

def readSetting (agrees : Bool) : IO Console.Setting := do
  let now := (← Std.Time.Timestamp.now).toSecondsSinceUnixEpoch.val.toNat
  let random ← IO.getRandomBytes 16
  return { now, storeNow := ← IO.monoMsNow, freshId := UniqueId.ofRandom random.toList, agrees }

def ask : Console.Command → IO Bool
  | .revoke _ _ false => do
    IO.print "Revoke this credential? [y/N] "
    (← IO.getStdout).flush
    return (lowered (trimmed (← (← IO.getStdin).getLine))) == "y"
  | _ => return false

def stop (message : String) (code : UInt32) : IO UInt32 := do
  IO.eprintln message
  return code

def carryOut (settings : Settings) (command : Console.Command) : IO UInt32 := do
  let setting ← readSetting (← ask command)
  match (command.run settings setting { link := .failing }).1 with
  | .error crash => stop crash.message 101
  | .ok outcome =>
    outcome.lines.forM IO.println
    match outcome.failure with
    | none => return 0
    | some reason => stop ("Error: " ++ reason) 1

def main (arguments : List String) : IO UInt32 := do
  match Console.Command.read arguments with
  | .error .helpWanted => IO.println (Console.Misuse.message .helpWanted); return 0
  | .error .versionWanted => IO.println (Console.Misuse.message .versionWanted); return 0
  | .error misuse => stop misuse.message 2
  | .ok command =>
    let found ← readVariables
    match Settings.read fun name => found.lookup name with
    | .error e => stop ("Error: Failed to load configuration: " ++ e.message) 1
    | .ok settings =>
      match settings.unfit, if command.needsStore then Console.storeUrl settings else .ok "" with
      | some unfit, _ => stop ("Error: Failed to load configuration: " ++ unfit.message) 1
      | none, .error reason => stop ("Error: " ++ reason) 1
      | none, .ok _ => carryOut settings command
