import SpriteStage.Script.Stmt
import SpriteStage.Host.Event
import SpriteStage.Span
import SpriteStage.Stage.Geometry

/-!
Tasks: scripts on their way.

What is left of a script is a list of frames, the innermost first. A task hands control back at the
end of every pass through a loop, so each frame says where to go on.
-/

namespace SpriteStage

/-- Times and limits by which scripts run. -/
structure Options where
  /-- The step of a glide. -/
  tick : Span
  /-- How often a condition that a script waits for is looked at. -/
  poll : Span
  /-- How long to wait for the mouse position. -/
  mouseTimeout : Span
  /-- How many messages are remembered. -/
  historyCapacity : Nat
  seed : UInt64
  deriving DecidableEq, Repr

/-- Sixty steps a second, and a known seed. -/
def Options.standard : Options where
  tick := .ofMicros 16667
  poll := .ofMicros 16667
  mouseTimeout := .ofMillis 50
  historyCapacity := 100
  seed := 0x5eed

/-! ### Frames -/

/-- What decides whether a loop goes on. -/
inductive Head where
  /-- So many passes are still to come. -/
  | times (left : Nat)
  | untilTrue (condition : Expr)
  | always

/-- Something that is left to do. -/
inductive Frame where
  /-- The rest of a body. -/
  | block (rest : List Stmt)
  /-- A pass of a loop is under way. -/
  | loop (head : Head) (body : List Stmt)
  /-- The next pass of a loop is due. -/
  | again (head : Head) (body : List Stmt)
  | glide (way : Stage.Glide Float) (started : Nat) (secs : Float)
  /-- A speech bubble has had its time. -/
  | unsay (kind : SpeechKind) (seq : Nat)
  /-- The mouse position for a condition has been asked for. -/
  | check (condition : Expr) (syncMouse : Bool)

/-! ### Tasks -/

/-- A number that no other task ever has. -/
abbrev TaskId := Nat

/-- A place in the tree of what can be stopped: a run, in it a scope for each entity, in it the
tasks. Stopping a place stops all that is below it. -/
abbrev Token := List Nat

/-- How far a task has come. A task that is over leaves the table, so the last two states are seen
nowhere. -/
inductive TaskState where
  /-- It has not run yet. -/
  | ready
  | running
  | suspended
  | completed
  | cancelled
  deriving DecidableEq, Repr

/-- A script on its way. -/
structure Task where
  id : TaskId
  entity : EntityId
  /-- The id of the hat block of its script. -/
  hat : String
  state : TaskState
  token : Token
  frames : List Frame

/-- Why a task hands control back. -/
inductive Pause where
  /-- To let the others run. -/
  | yield
  | sleep (span : Span)
  /-- Until the request for the mouse is answered, or for too long. -/
  | mouse (ticket : Nat)
  deriving DecidableEq, Repr

inductive Ending (ε : Type) where
  | completed
  | cancelled
  | failed (error : ε)
  deriving DecidableEq, Repr

/-- A task that waits for a time, and perhaps for the mouse before that. -/
structure Wait where
  task : TaskId
  deadline : Nat
  ticket : Option Nat
  deriving DecidableEq, Repr

/-- How many tasks there have been. Failed tasks count as completed too. -/
structure Stats where
  spawned : Nat
  completed : Nat
  cancelled : Nat
  failed : Nat
  deriving DecidableEq, Repr

def Stats.count {ε : Type} (s : Stats) : Ending ε → Stats
  | .completed => { s with completed := s.completed + 1 }
  | .cancelled => { s with cancelled := s.cancelled + 1 }
  | .failed _ => { s with completed := s.completed + 1, failed := s.failed + 1 }

end SpriteStage
