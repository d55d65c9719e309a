import SpriteStage.Machine.Execute

/-!
The order in which tasks run, and the passing of time.

Time stands still while a task is ready or has yielded; when all tasks wait, it goes on to the
earliest time that one waits for. Tasks can start tasks without end, so both functions here take a
limit.
-/

namespace SpriteStage.Machine

/-- Runs ready tasks until there are none, at most `limit` of them. -/
def round (m : Machine) : (limit : Nat) → Machine
  | 0 => m
  | limit + 1 =>
    match m.ready with
    | [] => m
    | id :: rest => ({ m with ready := rest }.poll id).round limit

/-- The tasks that have yielded become ready, the last one first. -/
def resumeYielded (m : Machine) : Machine :=
  { m with ready := m.ready ++ m.yielded.reverse, yielded := [] }

/-- Runs the tasks that are ready; then it is the turn of those that have yielded. -/
def turn (m : Machine) (limit : Nat) : Machine :=
  (m.round limit).resumeYielded

/-- Sets the clock and ends the waits whose time has come. -/
def reach (m : Machine) (time : Nat) : Machine :=
  { m with world := { m.world with clock := time } }.wake (m.waits.filter (·.deadline ≤ time))

/-- The earliest time that a task waits for, but no later than `target`. -/
def nextTime (m : Machine) (target : Nat) : Nat :=
  m.waits.foldl (fun time wait => min time wait.deadline) target

/-- Runs tasks and lets time pass until `target`. The tasks whose time comes then are ready, but do
not run any more. -/
def advanceTo (m : Machine) (target roundLimit : Nat) : (limit : Nat) → Machine
  | 0 => m
  | limit + 1 =>
    let m := m.round roundLimit
    if m.yielded.isEmpty then
      let time := m.nextTime target
      if time = target then m.reach time else (m.reach time).advanceTo target roundLimit limit
    else m.resumeYielded.advanceTo target roundLimit limit

def advance (m : Machine) (millis roundLimit limit : Nat) : Machine :=
  m.advanceTo (m.world.clock + millis) roundLimit limit

end SpriteStage.Machine
