import SpriteStage.Machine.Command
import SpriteStage.Machine.Schedule
import SpriteStage.Project.Document
import SpriteStage.Timeline.Cue

/-!
A session: a machine with a host that follows a timeline.

The host performs its cues when their times have come, answers every request for the mouse with the
position of the last cue for it, and stops the run at its end. Time is given from outside, so a
session can follow a clock or run through all its times at once.
-/

namespace SpriteStage.CommandLine

/-- A machine and its host. -/
structure Session where
  machine : Machine
  /-- The cues to come, in the order of their times. -/
  cues : List Timeline.Cue
  /-- What the host answers to requests for the mouse. -/
  mouse : Stage.Point Float
  runFor : Span
  /-- Has the host stopped the run at its end? -/
  isOver : Bool

namespace Session

/-- Loads a project and starts it. Cues at the end of the run or later are left out. -/
def new (p : Project) (program : Program) (cues : List Timeline.Cue) (options : Options)
    (runFor : Span) : Session where
  machine := ((Machine.new options).load p.specs program).start
  cues := cues.filter (·.time.nanos < runFor.nanos)
  mouse := ⟨0, 0⟩
  runFor := runFor
  isOver := false

def perform (s : Session) : Timeline.Input → Session
  | .keyDown key => { s with machine := s.machine.keyDown key }
  | .keyUp key => { s with machine := s.machine.keyUp key }
  | .click id => { s with machine := s.machine.click id }
  | .mouse x y => { s with mouse := ⟨x, y⟩ }
  | .stop => { s with machine := s.machine.stopAll }

def performDue (s : Session) (now : Nat) : Session :=
  let isDue (c : Timeline.Cue) : Bool := c.time.millisUp ≤ now
  (s.cues.takeWhile isDue).foldl (fun s c => s.perform c.input)
    { s with cues := s.cues.dropWhile isDue }

/-- How many tasks run before time is looked at again. -/
def roundLimit : Nat :=
  10000

/-- Runs the tasks that are ready and answers their requests for the mouse, until none is left. -/
def settle (s : Session) : (limit : Nat) → Session
  | 0 => s
  | limit + 1 =>
    let m := s.machine.round roundLimit
    if m.world.openTickets.isEmpty then { s with machine := m }
    else { s with machine := m.mousePosition s.mouse }.settle limit

/-- What happens at a time, given in milliseconds since the start. -/
def step (s : Session) (now : Nat) : Session :=
  -- Waits end before the cues of the same time are performed.
  let s := { s with machine := s.machine.reach now }.performDue now
  if s.runFor.millisUp ≤ now then { s with machine := s.machine.stopAll, isOver := true }
  else
    let s := s.settle roundLimit
    { s with machine := s.machine.resumeYielded }

/-- The time of the next step: soon if a task is ready, and else when something is due. -/
def nextTime (s : Session) : Nat :=
  if s.machine.ready.isEmpty then
    s.machine.nextTime (s.cues.foldl (fun t c => min t c.time.millisUp) s.runFor.millisUp)
  else s.machine.world.clock + 1

/-- Runs through the times of a session from `now` on, at most `limit` of them. -/
def play (s : Session) (now : Nat) : (limit : Nat) → Session
  | 0 => s
  | limit + 1 =>
    let s := s.step now
    if s.isOver then s else s.play s.nextTime limit

def history (s : Session) : List MessageRecord :=
  s.machine.world.switchboard.history

end Session

end SpriteStage.CommandLine
