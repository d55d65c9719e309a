import SpriteStage.Script.Eval
import SpriteStage.World.Looks

/-!
Statements at work on the world.

A deed works in place: it reads, checks and changes one thing after the other, and a failure leaves
standing all that was changed before it. What the deeds here come to is said by the functions of the
same names on worlds.
-/

namespace SpriteStage

open Stage (Point Glide)

/-- What a deed works on. -/
structure Scene where
  world : World
  random : SplitMix

/-- Work on a scene that may fail on the way. -/
abbrev Deed := EStateM ScriptError Scene

namespace Deed

variable {α : Type}

/-- Evaluates something in the world as it is by now. -/
def evaluate (x : World → Eval α) : Deed α := fun s =>
  match (x s.world).run.run s.random with
  | (.ok a, random) => .ok a { s with random }
  | (.error e, random) => .error e { s with random }

def check (x : World → Except ScriptError α) : Deed α :=
  evaluate fun w => .ofExcept (x w)

def change (f : World → World) : Deed Unit := fun s =>
  .ok () { s with world := f s.world }

def value (id : EntityId) (e : Expr) : Deed Value :=
  evaluate (e.eval · id)

def number (id : EntityId) (argument : String) (e : Expr) : Deed Float := do
  let v ← value id e
  check fun _ => v.asArgument argument

def entity (id : EntityId) : Deed Entity :=
  check (·.entity id)

def put (id : EntityId) (e : Entity) : Deed Unit :=
  change (·.setEntity id e)

def notify (event : HostEvent) : Deed Unit :=
  change (·.notify event)

/-- Puts an entity in place of another and tells the host what has changed. -/
def update (id : EntityId) (e : Entity) (patch : EntityPatch) : Deed Unit := do
  put id e
  notify (.entityStateChanged id patch)

/-! ### Motion -/

def moveTo (id : EntityId) (p : Point Float) : Deed Unit := do
  check fun _ => World.checkPoint p
  let e ← entity id
  let p := p.clamp e.halfSize
  update id (e.moved p) (.position p)

def moveBy (id : EntityId) (dx dy : Float) : Deed Unit := do
  let e ← entity id
  moveTo id ⟨e.x + dx, e.y + dy⟩

def moveSteps (id : EntityId) (steps : Float) : Deed Unit := do
  let e ← entity id
  let (dx, dy) := Stage.heading e.rotation
  moveBy id (steps * dx) (steps * dy)

def pointInDirection (id : EntityId) (direction : Float) : Deed Unit := do
  check fun _ => World.checkFinite direction "direction"
  let direction := Stage.wrapDirection direction
  let e ← entity id
  update id { e with rotation := direction } { EntityPatch.empty with rotation := some direction }

def rotate (id : EntityId) (degrees : Float) : Deed Unit := do
  check fun _ => World.checkFinite degrees "rotation"
  let e ← entity id
  pointInDirection id (e.rotation + degrees)

/-- The direction changes before the place does, and the host hears of both at once. -/
def bounceOnEdge (id : EntityId) : Deed Unit := do
  let e ← entity id
  match (Stage.gaps e.position e.halfSize).edge? with
  | none => return ()
  | some edge =>
    let rotation := Stage.reflect edge e.rotation
    put id { e with rotation }
    let p := Stage.pullBack e.position e.halfSize
    update id { e.moved p with rotation } { EntityPatch.position p with rotation := some rotation }

def planGlide (id : EntityId) (p : Point Float) : Deed (Glide Float) := do
  check fun _ => World.checkPoint p
  let e ← entity id
  return .plan e.position e.halfSize p

def glideTo (id : EntityId) (way : Glide Float) (share : Float) : Deed Unit := do
  let p := way.point share
  let e ← entity id
  update id (e.moved p) (.position p)

/-! ### Looks -/

def setSize (id : EntityId) (percent : Float) : Deed Unit := do
  check fun _ => World.checkFinite percent "size"
  let scale := Stage.atLeast 0 percent / 100
  let e ← entity id
  update id { e with scale } { EntityPatch.empty with scale := some scale }

def changeSize (id : EntityId) (percent : Float) : Deed Unit := do
  let e ← entity id
  setSize id (e.scale * 100 + percent)

def setVisible (id : EntityId) (visible : Bool) : Deed Unit := do
  let e ← entity id
  update id { e with visible } { EntityPatch.empty with visible := some visible }

/-- The number that it gives is the one by which the bubble can be taken away. -/
def say (id : EntityId) (kind : SpeechKind) (text : String) (secs : Option Float) : Deed Nat := do
  let e ← entity id
  let seq := e.speechSeq + 1
  put id { e with speechSeq := seq }
  notify (.speechBubble id text kind (secs.map World.wholeMillis))
  return seq

def clearSpeech (id : EntityId) (kind : SpeechKind) (seq : Nat) : Deed Unit := do
  let e ← entity id
  if e.speechSeq = seq then
    put id { e with speechSeq := seq + 1 }
    notify (.speechBubble id "" kind none)

/-! ### Costumes and backdrops -/

def applyCostume (id : EntityId) (index : Nat) : Deed Unit := do
  let e ← entity id
  let e := { e with currentCostume := index }
  update id e { EntityPatch.empty with costume := some index }
  if e.isBackground then notify (.switchBackground id e.costumeName)

def nextCostume (id : EntityId) : Deed Unit := do
  let e ← entity id
  if e.costumes.isEmpty then return ()
  else applyCostume id ((e.currentCostume + 1) % e.costumes.length)

/-- The place of a costume of an entity, which must be there. -/
def chooseCostume (e : Entity) (choice : Value) (words : World.Keywords) (error : ScriptError) :
    Deed Nat :=
  check fun _ =>
    match World.costumeIndex? e.costumes e.currentCostume choice words with
    | some index => .ok index
    | none => .error error

def switchBackground (choice : Value) : Deed Unit := do
  let id ← check (·.background)
  let e ← entity id
  let index ←
    if World.asksForRandom choice && !e.costumes.isEmpty then
      evaluate fun _ => World.drawOther e.currentCostume e.costumes.length
    else
      chooseCostume e choice ⟨"next backdrop", "previous backdrop"⟩ (.unknownBackdrop choice.toText)
  applyCostume id index

def nextBackground : Deed Unit := do
  let id ← check (·.background)
  nextCostume id

def switchCostume (id : EntityId) (choice : Value) : Deed Unit := do
  let e ← entity id
  if e.isBackground then switchBackground choice
  else
    let index ←
      chooseCostume e choice ⟨"next costume", "previous costume"⟩ (.unknownCostume choice.toText)
    applyCostume id index

/-! ### Sounds, variables and the timer -/

def startSound (id : EntityId) (choice : Value) : Deed Float := do
  let e ← entity id
  match World.findSound? e.sounds choice with
  | some sound =>
    notify (.soundStarted id sound.name)
    return sound.durationSecs
  | none => throw (.unknownSound choice.toText)

def stopAllSounds : Deed Unit :=
  notify .soundsStopped

def changeVariable (id : EntityId) (name : String) (f : Variable → Variable) : Deed Unit := do
  let w ← evaluate fun w => return w
  let v := f ((w.variableOf? id name).getD World.freshVariable)
  change (·.setCell (w.cell id name) v)
  notify (.variableVisibilityChanged name v.visible v.value)

def setVar (id : EntityId) (name : String) (value : Value) : Deed Unit :=
  changeVariable id name fun v => { v with value }

def changeVar (id : EntityId) (name : String) (delta : Float) : Deed Unit := do
  let current ← evaluate fun w => return w.variableValue id name
  setVar id name (.number (current.toNumber + delta))

def setVariableVisible (id : EntityId) (name : String) (visible : Bool) : Deed Unit :=
  changeVariable id name fun v => { v with visible }

def resetTimer : Deed Unit :=
  change World.resetTimer

end Deed

end SpriteStage
