import SpriteStage.Message.Switchboard
import SpriteStage.Number.Layout
import SpriteStage.Project.Error

/-!
What the command line tells its user: progress, failures and the messages of a run.
-/

namespace SpriteStage.CommandLine

/-! ### Progress -/

def barWidth : Nat :=
  14

/-- A bar that is filled in proportion to the steps. -/
def progressBar (step total : Nat) : String :=
  let filled := min barWidth ((step * barWidth + total / 2) / total)
  let cells := List.replicate filled '=' ++ List.replicate (barWidth - filled) '-'
  String.ofList ('[' :: cells ++ [']'])

def progressLine (step total : Nat) (label : String) : String :=
  "[Run] " ++ label ++ "... (" ++ toString step ++ "/" ++ toString total ++ ") " ++
    progressBar step total

/-! ### Failures -/

inductive Failure where
  | negativeRun
  | longRun (secs : Float)
  | load (error : Project.LoadError)
  | unwritable (path : String)
  | unreadableTimeline (path : String)
  | badTimeline (path : String)
  deriving DecidableEq, Repr

def Failure.message : Failure → String
  | .negativeRun => "--run-for must be a non-negative number of seconds."
  | .longRun secs => "--run-for " ++ Number.plain secs ++ " is too large."
  | .load error => error.message
  | .unwritable path => "Failed to write IR to '" ++ path ++ "'."
  | .unreadableTimeline path => "Failed to read timeline '" ++ path ++ "'."
  | .badTimeline path => "Invalid timeline '" ++ path ++ "'."

/-! ### Messages -/

def padLeft (width : Nat) (s : String) : String :=
  String.ofList (List.replicate (width - s.length) ' ') ++ s

def messageLine (r : MessageRecord) : String :=
  "  " ++ padLeft 7 (toString r.timestampMs) ++ " ms  '" ++ r.name ++ "' from " ++ r.sender.text ++
    " -> " ++ toString r.receivedBy.length ++ " listener(s)"

def historyLines (history : List MessageRecord) : List String :=
  ("[Run] " ++ toString history.length ++ " broadcast(s) recorded.") :: history.map messageLine

end SpriteStage.CommandLine
