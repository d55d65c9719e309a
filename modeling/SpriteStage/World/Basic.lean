import SpriteStage.Message.Switchboard
import SpriteStage.Span
import SpriteStage.World.Entity
import SpriteStage.World.Error

/-!
The world: the entities, the variables they share, the keys and the mouse, the switchboard, and the
events for the host in the order in which they were sent.

Time is counted in milliseconds since the world came to be. While no run is going on, nothing that
scripts do is told to the host.
-/

namespace SpriteStage

open Stage (Point)

/-- A request for the mouse position; it is closed once nobody waits for the answer. -/
structure MouseRequest where
  ticket : Nat
  isOpen : Bool
  deriving DecidableEq, Repr

/-- Everything that scripts see and change. -/
structure World where
  entities : List Entity
  /-- The variables of no entity. -/
  globals : Dict Variable
  /-- The keys that are down. -/
  keys : List String
  /-- Where the mouse was last seen. -/
  mouse : Point Float
  /-- When the timer was last reset. -/
  timerStart : Nat
  clock : Nat
  switchboard : Switchboard
  running : Bool
  /-- The failures that the host has been told of in this run. -/
  reported : List (EntityId × String)
  requests : List MouseRequest
  nextTicket : Nat
  events : List HostEvent

namespace World

def empty (historyCapacity : Nat) : World where
  entities := []
  globals := .empty
  keys := []
  mouse := ⟨0, 0⟩
  timerStart := 0
  clock := 0
  switchboard := .empty historyCapacity
  running := false
  reported := []
  requests := []
  nextTicket := 0
  events := []

/-! ### Setting up and running -/

/-- The variables of all backgrounds together; of equal names the last counts. -/
def sharedVariables (specs : List EntitySpec) : Dict Variable :=
  .ofList ((specs.filter (·.kind = .background)).flatMap (·.vars.entries))

/-- Sets up the entities anew. The variables of backgrounds become global. -/
def load (w : World) (specs : List EntitySpec) : World :=
  { w with
    running := false
    globals := sharedVariables specs
    keys := []
    mouse := ⟨0, 0⟩
    timerStart := w.clock
    switchboard := .empty w.switchboard.capacity
    reported := []
    entities := specs.map Entity.ofSpec }

/-- Begins a run: the timer starts, and every failure counts as new. -/
def beginRun (w : World) : World :=
  { w with running := true, reported := [], timerStart := w.clock }

/-- Ends a run; nobody waits for the mouse any more. -/
def halt (w : World) : World :=
  { w with running := false, requests := [] }

/-- The seconds since the timer was reset. -/
def timer (w : World) : Float :=
  (Span.ofMillis (w.clock - w.timerStart)).toSeconds

def resetTimer (w : World) : World :=
  { w with timerStart := w.clock }

/-! ### Events -/

def emit (w : World) (event : HostEvent) : World :=
  { w with events := w.events ++ [event] }

/-- Tells the host what a script does, in a run only. -/
def notify (w : World) (event : HostEvent) : World :=
  { w with events := w.events ++ if w.running then [event] else [] }

@[simp] theorem entities_notify (w : World) (event : HostEvent) :
    (w.notify event).entities = w.entities := rfl

@[simp] theorem globals_notify (w : World) (event : HostEvent) :
    (w.notify event).globals = w.globals := rfl

@[simp] theorem running_notify (w : World) (event : HostEvent) :
    (w.notify event).running = w.running := rfl

def isReported (w : World) (id : EntityId) (error : ScriptError) : Bool :=
  w.reported.contains (id, error.message)

/-- Tells the host of a failure, unless it has been told of it in this run. -/
def reportFailure (w : World) (id : EntityId) (error : ScriptError) : World :=
  if w.isReported id error then w
  else
    { w with
      reported := (id, error.message) :: w.reported
      events := w.events ++ [.runtimeError (some id) error.message] }

/-! ### Entities -/

def entity (w : World) (id : EntityId) : Except ScriptError Entity :=
  match w.entities[id]? with
  | some e => .ok e
  | none => .error (.unknownEntity id)

theorem entity_eq_ok_iff {w : World} {id : EntityId} {e : Entity} :
    w.entity id = .ok e ↔ w.entities[id]? = some e := by
  unfold entity
  cases w.entities[id]? <;> simp

/-- The first entity with a name, without regard to the case of basic letters. -/
def findEntity? (w : World) (name : String) : Option EntityId :=
  w.entities.findIdx? (Text.equalFold ·.name name)

def background? (w : World) : Option EntityId :=
  w.entities.findIdx? (·.isBackground)

def setEntity (w : World) (id : EntityId) (e : Entity) : World :=
  { w with entities := w.entities.set id e }

/-- Changes an entity and tells the host what has changed. -/
def update (w : World) (id : EntityId) (e : Entity) (patch : EntityPatch) : World :=
  (w.setEntity id e).notify (.entityStateChanged id patch)

@[simp] theorem entities_update (w : World) (id : EntityId) (e : Entity) (patch : EntityPatch) :
    (w.update id e patch).entities = w.entities.set id e := rfl

/-! ### The mouse -/

/-- Opens a request for the mouse position. Requests for whose answer nobody waits are dropped. -/
def requestMouse (w : World) : Nat × World :=
  (w.nextTicket,
    { w with
      requests := w.requests.filter (·.isOpen) ++ [⟨w.nextTicket, true⟩]
      nextTicket := w.nextTicket + 1 })

def closeRequest (w : World) (ticket : Nat) : World :=
  { w with
    requests := w.requests.map fun r =>
      if r.ticket = ticket then { r with isOpen := false } else r }

/-- The requests that somebody waits for, in the order in which they were made. -/
def openTickets (w : World) : List Nat :=
  (w.requests.filter (·.isOpen)).map (·.ticket)

/-- Takes over where the mouse is; all requests are answered. -/
def setMouse (w : World) (p : Point Float) : World :=
  { w with mouse := p, requests := [] }

end World

end SpriteStage
