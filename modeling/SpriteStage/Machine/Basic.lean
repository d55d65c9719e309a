import SpriteStage.Machine.Task
import SpriteStage.World.Basic

/-!
The machine: a world, the programs of its entities, and the tasks that run them one at a time.

Ready tasks stand in a queue. A task that yields is set aside until the queue has been worked off; a
task that waits for a time or for the mouse comes back to the queue when that has come. A stopped
task that waits comes back at once, only to end.
-/

namespace SpriteStage

/-- Everything that runs. -/
structure Machine where
  world : World
  random : SplitMix
  options : Options
  /-- The programs of the entities, in their order. -/
  programs : List EntityProgram
  /-- The run that is going on, or the last one. -/
  run : Token
  /-- The scope of each entity in the run. -/
  scopes : List (EntityId × Token)
  /-- What has been stopped. -/
  stopped : List Token
  /-- The serial number of the next run or scope. -/
  nextSerial : Nat
  /-- The tasks that have not ended, in the order of their numbers. -/
  tasks : List Task
  nextTask : TaskId
  stats : Stats
  /-- How many statements have been executed. -/
  statements : Nat
  /-- The tasks whose turn it is, the next one first. -/
  ready : List TaskId
  /-- The tasks that have yielded, the last one at the end. -/
  yielded : List TaskId
  /-- The tasks that wait, in the order in which they began to. -/
  waits : List Wait

namespace Machine

/-- A machine without entities; no run is going on. -/
def new (options : Options) : Machine where
  world := .empty options.historyCapacity
  random := .ofSeed options.seed
  options := options
  programs := []
  run := [0]
  scopes := []
  stopped := [[0]]
  nextSerial := 1
  tasks := []
  nextTask := 1
  stats := ⟨0, 0, 0, 0⟩
  statements := 0
  ready := []
  yielded := []
  waits := []

/-! ### Stopping -/

/-- Has the place, or one above it, been stopped? -/
def isStopped (m : Machine) (t : Token) : Bool :=
  m.stopped.any (·.isPrefixOf t)

def task? (m : Machine) (id : TaskId) : Option Task :=
  m.tasks.find? (·.id == id)

def isStoppedWait (m : Machine) (wait : Wait) : Bool :=
  match m.task? wait.task with
  | some t => m.isStopped t.token
  | none => true

/-- Ends waits: their tasks come to the queue, and their requests for the mouse are closed. -/
def wake (m : Machine) (waits : List Wait) : Machine :=
  { m with
    waits := m.waits.filter fun x => !waits.contains x
    ready := m.ready ++ waits.map (·.task)
    world := (waits.filterMap (·.ticket)).foldl World.closeRequest m.world }

/-- Stops all that is at a place or below it. Waits of stopped tasks end. -/
def stop (m : Machine) (t : Token) : Machine :=
  let m := { m with stopped := t :: m.stopped }
  m.wake (m.waits.filter m.isStoppedWait)

def halt (m : Machine) : Machine :=
  { m with world := m.world.halt }.stop m.run

/-- Ends the run and tells the host. -/
def stopAll (m : Machine) : Machine :=
  let m := m.halt
  { m with world := m.world.emit .executionStopped }

/-- Gives an entity a new scope in the run. -/
def openScope (m : Machine) (id : EntityId) : Machine :=
  { m with
    scopes := (id, m.run ++ [m.nextSerial]) :: m.scopes.filter (·.1 != id)
    nextSerial := m.nextSerial + 1 }

/-- Stops all tasks of an entity; later ones run again. -/
def stopEntity (m : Machine) (id : EntityId) : Machine :=
  match m.scopes.lookup id with
  -- What starts from now on is in the new scope, out of reach of the stop.
  | some old => (m.openScope id).stop old
  | none => m.openScope id

def stopOthers (m : Machine) (id : EntityId) (except : TaskId) : Machine :=
  (m.tasks.filter fun t => t.entity == id && t.id != except).foldl (fun m t => m.stop t.token) m

/-! ### Tasks -/

/-- Starts a script of an entity, unless the entity is stopped. -/
def spawn (m : Machine) (id : EntityId) (script : Script) : Machine :=
  match m.scopes.lookup id with
  | none => m
  | some scope =>
    if m.isStopped scope then m
    else
      { m with
        tasks := m.tasks ++
          [⟨m.nextTask, id, script.hat, .ready, scope ++ [m.nextTask], [.block script.body]⟩]
        nextTask := m.nextTask + 1
        stats := { m.stats with spawned := m.stats.spawned + 1 }
        ready := m.ready ++ [m.nextTask] }

def spawnAll (m : Machine) (listeners : List Listener) : Machine :=
  listeners.foldl (fun m l => m.spawn l.entity l.script) m

/-- Sends a message in a run: it is recorded, the host hears of it, and each listener starts. -/
def broadcast (m : Machine) (name : String) (sender : EntityId) : Machine :=
  if m.world.running then
    let listeners := m.world.switchboard.messageListeners name
    let record : MessageRecord := ⟨name, sender, m.world.clock, listeners.map (·.entity)⟩
    let world := { m.world with switchboard := m.world.switchboard.record record }
    let world := world.notify (.messageBroadcastObserved name sender m.world.clock)
    { m with world }.spawnAll listeners
  else m

def listenerCount (m : Machine) (name : String) : Nat :=
  if m.world.running then (m.world.switchboard.messageListeners name).length else 0

def setTask (m : Machine) (id : TaskId) (f : Task → Task) : Machine :=
  { m with tasks := m.tasks.map fun t => if t.id = id then f t else t }

/-- Takes a task out. The host hears of a failure if the run is still going on. -/
def finish (m : Machine) (t : Task) (ending : Ending ScriptError) : Machine :=
  let m := { m with tasks := m.tasks.filter (·.id != t.id), stats := m.stats.count ending }
  match ending with
  | .failed e => if m.world.running then { m with world := m.world.reportFailure t.entity e } else m
  | _ => m

/-- Sets a task aside with what is left of it. -/
def suspend (m : Machine) (id : TaskId) (pause : Pause) (frames : List Frame) : Machine :=
  let m := m.setTask id fun t => { t with state := .suspended, frames }
  match pause with
  | .yield => { m with yielded := m.yielded ++ [id] }
  | .sleep span => { m with waits := m.waits ++ [⟨id, m.world.clock + span.millisUp, none⟩] }
  | .mouse ticket =>
    { m with
      waits := m.waits ++ [⟨id, m.world.clock + m.options.mouseTimeout.millisUp, some ticket⟩] }

end Machine

end SpriteStage
