import SpriteStage.World.Basic

/-!
Variables. A name means the entity's own variable if it has one, and the global one otherwise; a
global variable comes to be when it is first written.
-/

namespace SpriteStage.World

/-- Where a variable is kept. -/
inductive Cell where
  | own (id : EntityId) (name : String)
  | shared (name : String)
  deriving DecidableEq, Repr

/-- The cell that an entity means by a name. -/
def cell (w : World) (id : EntityId) (name : String) : Cell :=
  match w.entities[id]? with
  | some e => if e.vars.contains name then .own id name else .shared name
  | none => .shared name

def cellVariable? (w : World) : Cell → Option Variable
  | .own id name => w.entities[id]?.bind (·.vars.get? name)
  | .shared name => w.globals.get? name

def variableOf? (w : World) (id : EntityId) (name : String) : Option Variable :=
  w.cellVariable? (w.cell id name)

/-- The value of a variable; one that was never written is zero. -/
def variableValue (w : World) (id : EntityId) (name : String) : Value :=
  ((w.variableOf? id name).map (·.value)).getD (.number 0)

def setCell (w : World) (c : Cell) (v : Variable) : World :=
  match c with
  | .own id name =>
    { w with entities := w.entities.modify id fun e =>
        { e with vars := e.vars.insert name v } }
  | .shared name => { w with globals := w.globals.insert name v }

def freshVariable : Variable :=
  ⟨.number 0, false, none⟩

/-- Changes a variable and tells the host how it is shown now. -/
def changeVariable (w : World) (id : EntityId) (name : String) (f : Variable → Variable) : World :=
  let v := f ((w.variableOf? id name).getD freshVariable)
  (w.setCell (w.cell id name) v).notify (.variableVisibilityChanged name v.visible v.value)

def setVar (w : World) (id : EntityId) (name : String) (value : Value) : World :=
  w.changeVariable id name fun v => { v with value }

def changeVar (w : World) (id : EntityId) (name : String) (delta : Float) : World :=
  w.setVar id name (.number ((w.variableValue id name).toNumber + delta))

def setVariableVisible (w : World) (id : EntityId) (name : String) (visible : Bool) : World :=
  w.changeVariable id name fun v => { v with visible }

end SpriteStage.World
