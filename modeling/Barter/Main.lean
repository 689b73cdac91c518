import Barter.CommandLine.Program
import Std.Time

open Barter.CommandLine

def readIfPresent (path : String) : IO (Option String) := do
  try
    return some (← IO.FS.readFile path)
  catch _ =>
    return none

def report (problem : Problem) : IO UInt32 := do
  match problem with
  | .usage .help | .usage .version =>
      IO.println problem.message
      return 0
  | .usage _ =>
      IO.eprintln problem.message
      return 2
  | _ =>
      IO.eprintln problem.message
      return 1

def secondsNow : IO UInt64 := do
  let now ← Std.Time.Timestamp.now
  return .ofNat now.toSecondsSinceUnixEpoch.val.toNat

def main (words : List String) : IO UInt32 := do
  let settings ← readIfPresent ".env"
  let given := ((← IO.getEnv variableName).map fun value => (variableName, value)).toList
  let text ← (file? words given settings).bindM readIfPresent
  match run words given settings (fun _ => text) (← secondsNow) with
  | .error problem => report problem
  | .ok lines =>
      lines.forM fun line => IO.println line
      return 0
