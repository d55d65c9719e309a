import SpriteStage.Machine.Execute

/-!
What a host can do with a machine. Nothing here runs a script: scripts that a command starts become
ready.
-/

namespace SpriteStage.Machine

/-- Loads entities and their programs; missing programs are empty, and those of no entity are left
out. The run ends. -/
def load (m : Machine) (specs : List EntitySpec) (program : Program) : Machine :=
  let m := m.halt
  { m with
    world := m.world.load specs
    programs := program.entities.take specs.length ++
      List.replicate (specs.length - program.entities.length) EntityProgram.empty
    scopes := [] }

def registerAll (w : World) (programs : List EntityProgram) : World :=
  { w with
    switchboard := ((List.range w.entities.length).zip programs).foldl
      (fun b (id, p) => b.register id p) w.switchboard.clearListeners }

/-- Begins a run: the last one ends, all scripts are registered, and the start scripts become
ready. -/
def start (m : Machine) : Machine :=
  let m := m.halt
  let ids := List.range m.world.entities.length
  let m :=
    { m with
      run := [m.nextSerial]
      nextSerial := m.nextSerial + 1
      world := registerAll m.world.beginRun m.programs
      scopes := [] }
  let m := ids.foldl openScope m
  (ids.zip m.programs).foldl (fun m (id, p) => p.onStart.toList.foldl (·.spawn id ·) m) m

def keyDown (m : Machine) (key : String) : Machine :=
  let key := Name.key key
  let m := { m with world := { m.world with keys := m.world.keys.insert key } }
  if m.world.running then m.spawnAll (m.world.switchboard.keyListeners key) else m

def keyUp (m : Machine) (key : String) : Machine :=
  { m with world := { m.world with keys := m.world.keys.erase (Name.key key) } }

def click (m : Machine) (id : EntityId) : Machine :=
  if m.world.running then m.spawnAll (m.world.switchboard.clickListeners id) else m

def waitFor? (m : Machine) (ticket : Nat) : Option Wait :=
  m.waits.find? (·.ticket == some ticket)

/-- The host says where the mouse is: all that wait for it go on, in the order in which they have
asked. -/
def mousePosition (m : Machine) (p : Stage.Point Float) : Machine :=
  let answered := m.world.openTickets.filterMap m.waitFor?
  { m with world := m.world.setMouse p }.wake answered

/-- Puts another program in place of an entity's. Tasks keep the scripts that they have. -/
def updateCode (m : Machine) (id : EntityId) (program : EntityProgram) : Machine :=
  if id < m.programs.length then
    let m := { m with programs := m.programs.set id program }
    if m.world.running then
      { m with world := { m.world with switchboard := m.world.switchboard.register id program } }
    else m
  else m

/-- Does what a host asks for; a shutdown is left to whoever reads the commands. -/
def handle (m : Machine) : HostCommand → Machine
  | .loadProgram entities program => m.load entities program
  | .start => m.start
  | .stop => m.stopAll
  | .keyDown key => m.keyDown key
  | .keyUp key => m.keyUp key
  | .clickEntity id => m.click id
  | .mousePosition x y => m.mousePosition ⟨x, y⟩
  | .updateCode id program => m.updateCode id program
  | .shutdown => m

/-- Does what a host asks for until it asks for a shutdown or for no more; then the run ends. -/
def serve (m : Machine) : List HostCommand → Machine
  | [] => m.halt
  | .shutdown :: _ => m.halt
  | command :: rest => (m.handle command).serve rest

end SpriteStage.Machine
