import SpriteStage.CommandLine.Prepare

/-!
The command line: loads a project, compiles it, and runs its scripts, printing what the host is told
as one JSON object a line.
-/

open SpriteStage
open SpriteStage.CommandLine

namespace SpriteStage.CommandLine

def disk : Surroundings IO where
  say line := IO.eprintln line
  locate path := do
    try
      let absolute ← IO.FS.realPath path
      let data ← absolute.metadata
      return if data.type == .file then some absolute.toString else none
    catch _ => return none
  read path := do
    try return some (← IO.FS.readBinFile path) catch _ => return none
  write path text := do
    try
      IO.FS.writeFile path text
      return true
    catch _ => return false

/-- Prints the events of a session and forgets them. -/
def printEvents (s : Session) : IO Session := do
  for event in s.machine.world.events do
    IO.println event.toJson.compact
  (← IO.getStdout).flush
  let world := { s.machine.world with events := [] }
  return { s with machine := { s.machine with world } }

/-- Follows the clock until the session is over. -/
partial def follow (started : Nat) (s : Session) : IO Session := do
  let now := (← IO.monoMsNow) - started
  let s ← printEvents (s.step now)
  if s.isOver then return s
  let later := (← IO.monoMsNow) - started
  IO.sleep (min (s.nextTime - later) 1000).toUInt32
  follow started s

def runSession (s : Session) : IO Unit := do
  let s ← follow (← IO.monoMsNow) s
  for line in historyLines s.history do
    IO.eprintln line

def usage : String :=
  "Usage: spritestage [--run-for <SECS>] [--timeline <FILE>] [--emit-ir <FILE>] " ++
    "[--history-cap <N>] [--seed <N>] [--log-level <LEVEL>] [--check] <INPUT>"

/-- Runs a command and gives its exit code. -/
def runCommand (words : List String) : IO UInt32 := do
  match Arguments.read words with
  | .error .displayHelp =>
    IO.println usage
    return 0
  | .error _ =>
    IO.eprintln usage
    return 2
  | .ok a =>
    match ← (prepare disk a).run with
    | .error e =>
      IO.eprintln ("Error: " ++ e.message)
      return 1
    | .ok none => return 0
    | .ok (some s) =>
      runSession s
      return 0

end SpriteStage.CommandLine

def main (words : List String) : IO UInt32 :=
  runCommand words
