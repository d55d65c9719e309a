import SpriteStage.World.Basic

/-!
Moving and turning entities: what comes of it in a world, as a whole. Each change goes to the host
as a patch of the fields that it touches.
-/

namespace SpriteStage.World

open Stage (Point Glide)

/-- Refuses a point with a coordinate that is no number. -/
def checkPoint (p : Point Float) : Except ScriptError Unit :=
  if p.x.isNaN || p.y.isNaN then .error (.nonFinite "position") else .ok ()

def checkFinite (x : Float) (what : String) : Except ScriptError Unit :=
  if x.isFinite then .ok () else .error (.nonFinite what)

/-- Moves an entity to a point, or as near to it as the stage allows. -/
def moveTo (w : World) (id : EntityId) (p : Point Float) : Except ScriptError World := do
  checkPoint p
  let e ← w.entity id
  let p := p.clamp e.halfSize
  return w.update id (e.moved p) (.position p)

def moveBy (w : World) (id : EntityId) (dx dy : Float) : Except ScriptError World := do
  let e ← w.entity id
  w.moveTo id ⟨e.x + dx, e.y + dy⟩

def moveSteps (w : World) (id : EntityId) (steps : Float) : Except ScriptError World := do
  let e ← w.entity id
  let (dx, dy) := Stage.heading e.rotation
  w.moveBy id (steps * dx) (steps * dy)

def pointInDirection (w : World) (id : EntityId) (direction : Float) :
    Except ScriptError World := do
  checkFinite direction "direction"
  let direction := Stage.wrapDirection direction
  let e ← w.entity id
  return w.update id { e with rotation := direction }
    { EntityPatch.empty with rotation := some direction }

def rotate (w : World) (id : EntityId) (degrees : Float) : Except ScriptError World := do
  checkFinite degrees "rotation"
  let e ← w.entity id
  w.pointInDirection id (e.rotation + degrees)

/-- Turns an entity away from the edge that it touches and pulls it back onto the stage. -/
def bounceOnEdge (w : World) (id : EntityId) : Except ScriptError World := do
  let e ← w.entity id
  match (Stage.gaps e.position e.halfSize).edge? with
  | none => return w
  | some edge =>
    let p := Stage.pullBack e.position e.halfSize
    let rotation := Stage.reflect edge e.rotation
    return w.update id { e.moved p with rotation }
      { EntityPatch.position p with rotation := some rotation }

def planGlide (w : World) (id : EntityId) (p : Point Float) : Except ScriptError (Glide Float) := do
  checkPoint p
  let e ← w.entity id
  return .plan e.position e.halfSize p

/-- Puts an entity on its way, after a share of it. -/
def glideTo (w : World) (id : EntityId) (way : Glide Float) (share : Float) :
    Except ScriptError World := do
  let e ← w.entity id
  let p := way.point share
  return w.update id (e.moved p) (.position p)

end SpriteStage.World
