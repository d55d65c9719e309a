import SpriteStage.Machine.Basic
import SpriteStage.Machine.Deed

/-!
Running a task until it hands control back.

Every pass through a loop ends in handing control back, so running is by recursion on the statements
and needs no limit: within one turn of a task no statement is reached twice.
-/

namespace SpriteStage

/-- Who is running. -/
structure Self where
  task : TaskId
  entity : EntityId

/-- What comes of running something. -/
inductive Step where
  | done (m : Machine)
  /-- The task hands control back; the frames are what is left. -/
  | paused (m : Machine) (pause : Pause) (frames : List Frame)
  | ended (m : Machine) (ending : Ending ScriptError)

/-- Goes on after a step; if it has paused, `later` is left to do behind it. -/
def Step.andThen (s : Step) (k : Machine → Step) (later : List Frame) : Step :=
  match s with
  | .done m => k m
  | .paused m pause frames => .paused m pause (frames ++ later)
  | .ended m ending => .ended m ending

theorem Step.andThen_assoc (s : Step) (k l : Machine → Step) (f g : List Frame) :
    (s.andThen k f).andThen l g = s.andThen (fun m => (k m).andThen l g) (f ++ g) := by
  cases s <;> simp [andThen]

/-- The time that a script waits for a number of seconds; no more than the longest span, and none
at all unless the number is positive. -/
def Span.ofWait (secs : Float) : Span :=
  if 0 < secs then (Span.ofSeconds? secs).getD .longest else .zero

namespace Machine

open Deed

/-- Goes on with the result of a computation; a failure ends the task. -/
def eval {α : Type} (m : Machine) (x : Eval α) (k : α → Machine → Step) : Step :=
  match x.run.run m.random with
  | (.ok a, random) => k a { m with random }
  | (.error e, random) => .ended { m with random } (.failed e)

/-- Goes on after a deed. A failure ends the task, and what the deed has changed by then stays
changed. -/
def work {α : Type} (m : Machine) (d : Deed α) (k : α → Machine → Step) : Step :=
  match d.run ⟨m.world, m.random⟩ with
  | .ok a s => k a { m with world := s.world, random := s.random }
  | .error e s => .ended { m with world := s.world, random := s.random } (.failed e)

def perform (m : Machine) (d : Deed Unit) : Step :=
  m.work d fun _ => .done

/-- Pauses for a time; no time at all still lets the others run. -/
def pauseFor (m : Machine) (span : Span) (frames : List Frame) : Step :=
  .paused m (if span = .zero then .yield else .sleep span) frames

/-- Asks the host for the mouse and waits for the answer, if there is any time to wait. -/
def askMouse (m : Machine) (self : Self) : Step :=
  let (ticket, world) := m.world.requestMouse
  let world := world.notify (.mousePositionRequest self.entity)
  if m.options.mouseTimeout = .zero then .done { m with world := world.closeRequest ticket }
  else .paused { m with world } (.mouse ticket) []

def stopScope (m : Machine) (self : Self) : StopScope → Step
  | .thisScript => .ended m .completed
  | .all => .ended m.stopAll .cancelled
  | .thisSprite => .ended (m.stopEntity self.entity) .cancelled
  | .otherScriptsInSprite => .done (m.stopOthers self.entity self.task)

/-- Glides along a way. With no time for it, the entity is at its end at once. -/
def glide (m : Machine) (self : Self) (secs : Float) (way : Stage.Glide Float) : Step :=
  if 0 < secs then m.pauseFor m.options.tick [.glide way m.world.clock secs]
  else m.work (Deed.glideTo self.entity way 1) fun _ m => m.pauseFor .zero []

def act (m : Machine) (self : Self) : Action → Step
  | .moveTo x y => m.perform do
    let x ← number self.entity "X" x
    let y ← number self.entity "Y" y
    moveTo self.entity ⟨x, y⟩
  | .moveBy dx dy => m.perform do
    let dx ← number self.entity "DX" dx
    let dy ← number self.entity "DY" dy
    moveBy self.entity dx dy
  | .moveSteps steps => m.perform do
    let steps ← number self.entity "STEPS" steps
    moveSteps self.entity steps
  | .glide secs x y =>
    let plan : Deed (Float × Stage.Glide Float) := do
      let secs ← number self.entity "SECS" secs
      let x ← number self.entity "X" x
      let y ← number self.entity "Y" y
      return (secs, ← planGlide self.entity ⟨x, y⟩)
    m.work plan fun (secs, way) m => m.glide self secs way
  | .rotate degrees => m.perform do
    let degrees ← number self.entity "DEGREES" degrees
    rotate self.entity degrees
  | .pointInDirection direction => m.perform do
    let direction ← number self.entity "DIRECTION" direction
    pointInDirection self.entity direction
  | .bounceOnEdge => m.perform (bounceOnEdge self.entity)
  | .setSize percent => m.perform do
    let percent ← number self.entity "SIZE" percent
    setSize self.entity percent
  | .changeSize percent => m.perform do
    let percent ← number self.entity "CHANGE" percent
    changeSize self.entity percent
  | .appear => m.perform (setVisible self.entity true)
  | .vanish => m.perform (setVisible self.entity false)
  | .wait secs =>
    m.work (number self.entity "DURATION" secs) fun secs m => m.pauseFor (.ofWait secs) []
  | .broadcast message =>
    m.work (value self.entity message) fun message m =>
      .done (m.broadcast message.toText self.entity)
  | .broadcastAndWait message secs =>
    let send : Deed (String × Float) := do
      let message ← value self.entity message
      return (message.toText, ← number self.entity "SECS" secs)
    m.work send fun (name, secs) m => (m.broadcast name self.entity).pauseFor (.ofWait secs) []
  | .setVar name v => m.perform do
    let v ← value self.entity v
    setVar self.entity name v
  | .changeVar name delta => m.perform do
    let delta ← number self.entity "VALUE" delta
    changeVar self.entity name delta
  | .showVariable name => m.perform (setVariableVisible self.entity name true)
  | .hideVariable name => m.perform (setVariableVisible self.entity name false)
  | .speech kind text none =>
    let speak : Deed Nat := do
      let text ← value self.entity text
      say self.entity kind text.toText none
    m.work speak fun _ => .done
  | .speech kind text (some secs) =>
    let speak : Deed (Nat × Float) := do
      let text ← value self.entity text
      let secs ← number self.entity "SECS" secs
      return (← say self.entity kind text.toText (some secs), secs)
    m.work speak fun (seq, secs) m => m.pauseFor (.ofWait secs) [.unsay kind seq]
  | .switchCostume costume => m.perform do
    let costume ← value self.entity costume
    switchCostume self.entity costume
  | .nextCostume => m.perform (nextCostume self.entity)
  | .switchBackground backdrop => m.perform do
    let backdrop ← value self.entity backdrop
    switchBackground backdrop
  | .nextBackground => m.perform nextBackground
  | .playSound sound untilDone =>
    let play : Deed Float := do
      let sound ← value self.entity sound
      startSound self.entity sound
    m.work play fun secs m => if untilDone then m.pauseFor (.ofWait secs) [] else .done m
  | .stopAllSounds => m.perform stopAllSounds
  | .resetTimer => m.perform resetTimer
  | .stop scope => m.stopScope self scope
  | .syncMouse => m.askMouse self
  | .yield => m.pauseFor .zero []

/-- Goes on if a condition holds, and else looks again later. -/
def check (m : Machine) (self : Self) (condition : Expr) (syncMouse : Bool) : Step :=
  m.eval (condition.eval m.world self.entity) fun v m =>
    if v.toBool then .done m
    else m.pauseFor m.options.poll [.block [.waitUntil condition syncMouse]]

def waitUntil (m : Machine) (self : Self) (condition : Expr) (syncMouse : Bool) : Step :=
  if syncMouse then
    (m.askMouse self).andThen (·.check self condition syncMouse) [.check condition syncMouse]
  else m.check self condition syncMouse

end Machine

/-! ### Loops -/

def passCount (times : Float) : Nat :=
  if 0 < times then times.round.toUInt64.toNat else 0

/-- What decides after the next pass, or nothing if the loop is over. -/
def Head.next (w : World) (id : EntityId) : Head → Eval (Option Head)
  | .times 0 => return none
  | .times (left + 1) => return some (.times left)
  | .untilTrue condition => do
    let v ← condition.eval w id
    return if v.toBool then none else some (.untilTrue condition)
  | .always => return some .always

namespace Machine

/-- Runs the next pass of a loop by `run`, if there is one. A pass that ends at once is followed by
a pause. -/
def pass (m : Machine) (self : Self) (head : Head) (body : List Stmt) (run : Machine → Step) :
    Step :=
  m.eval (head.next m.world self.entity) fun next m =>
    match next with
    | none => .done m
    -- A pass that has paused on its way ends in the frame `loop`, which knows if a pause is due.
    | some head => (run m).andThen (.paused · .yield [.again head body]) [.loop head body]

def counted (m : Machine) : Machine :=
  { m with statements := m.statements + 1 }

mutual

def exec (self : Self) (m : Machine) : Stmt → Step
  | .act a => m.counted.act self a
  | .waitUntil condition syncMouse => m.counted.waitUntil self condition syncMouse
  | .repeatTimes times body =>
    m.counted.eval (times.evalNumber m.world self.entity "TIMES") fun times m =>
      m.pass self (.times (passCount times)) body fun m => execBlock self m body
  | .repeatUntil condition body =>
    m.counted.pass self (.untilTrue condition) body fun m => execBlock self m body
  | .forever body => m.counted.pass self .always body fun m => execBlock self m body
  | .branch condition thenBody elseBody =>
    m.counted.eval (condition.eval m.world self.entity) fun v m =>
      if v.toBool then execBlock self m thenBody else execBlock self m elseBody

def execBlock (self : Self) (m : Machine) : List Stmt → Step
  | [] => .done m
  | s :: rest => (exec self m s).andThen (fun m => execBlock self m rest) [.block rest]

end

theorem execBlock_singleton (self : Self) (m : Machine) (s : Stmt) :
    execBlock self m [s] = (exec self m s).andThen .done [.block []] := by
  simp only [execBlock]

/-! ### Going on -/

def runFrame (self : Self) (m : Machine) : Frame → Step
  | .block rest => execBlock self m rest
  | .loop head body =>
    -- A body that ends in a yield has paused there; any other one pauses between its passes.
    if endsInYield body then m.pass self head body fun m => execBlock self m body
    else .paused m .yield [.again head body]
  | .again head body => m.pass self head body fun m => execBlock self m body
  | .glide way started secs =>
    -- The way was planned at the start, wherever the entity has been put since.
    let share := (Span.ofMillis (m.world.clock - started)).toSeconds / secs
    m.work (Deed.glideTo self.entity way share) fun _ m =>
      if 1 ≤ share then .done m else m.pauseFor m.options.tick [.glide way started secs]
  | .unsay kind seq => m.perform (Deed.clearSpeech self.entity kind seq)
  | .check condition syncMouse => m.check self condition syncMouse

/-- Does what the frames say, one after the other; then the task is completed. -/
def runFrames (self : Self) (m : Machine) : List Frame → Step
  | [] => .ended m .completed
  | f :: rest => (runFrame self m f).andThen (fun m => runFrames self m rest) rest

/-- Runs a task until it hands control back or ends. A stopped task ends at once. -/
def poll (m : Machine) (id : TaskId) : Machine :=
  match m.task? id with
  | none => m
  | some t =>
    if m.isStopped t.token then m.finish t .cancelled
    else
      match runFrames ⟨id, t.entity⟩ (m.setTask id ({ · with state := .running })) t.frames with
      | .done m => m.finish t .completed
      | .paused m pause frames => m.suspend id pause frames
      | .ended m ending => m.finish t ending

end Machine

end SpriteStage
