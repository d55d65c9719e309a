import SpriteStage.World.Data

/-!
What scripts can ask about the world. Nothing here changes it; only random numbers move the random
source on.
-/

namespace SpriteStage.World

open Stage (Point)

def backdrop (w : World) : Nat × String :=
  match w.entities.find? (·.isBackground) with
  | some b => (b.currentCostume + 1, b.costumeName)
  | none => (1, "")

def query (w : World) (id : EntityId) (q : Query) : Except ScriptError Value := do
  let e ← w.entity id
  return match q with
    | .xPosition => .number e.x
    | .yPosition => .number e.y
    | .direction => .number e.rotation
    | .size => .number (e.scale * 100).round
    | .costumeNumber => .number (Float.ofNat (e.currentCostume + 1))
    | .costumeName => .text e.costumeName
    | .backdropNumber => .number (Float.ofNat w.backdrop.1)
    | .backdropName => .text w.backdrop.2
    | .timer => .number w.timer
    | .mouseX => .number w.mouse.x
    | .mouseY => .number w.mouse.y

/-- Is a key down? The name for every key asks whether one is. -/
def keyPressed (w : World) (key : String) : Bool :=
  let key := Name.key key
  if key = anyKey then !w.keys.isEmpty else w.keys.contains key

/-- Does an entity touch the edge, the mouse, or another sprite? Hidden entities touch nothing. -/
def touching (w : World) (id : EntityId) (target : String) : Except ScriptError Bool := do
  let e ← w.entity id
  if !e.visible then return false
  else if target = edgeTarget then return Stage.touchesEdge e.position e.halfSize
  else if target = mouseTarget then return Stage.boxContains e.position e.halfSize w.mouse
  else
    match w.findEntity? target with
    | none => return false
    | some other =>
      return match w.entities[other]? with
        | some o => other != id && o.visible && !o.isBackground &&
            Stage.boxesOverlap e.position e.halfSize o.position o.halfSize
        | none => false

/-- The distance to a target that does not exist. -/
def unknownDistance : Float :=
  10000

def place? (w : World) (target : String) : Option (Point Float) :=
  if target = mouseTarget then some w.mouse
  else
    ((w.findEntity? target).bind (w.entities[·]?)).bind fun o =>
      if o.isBackground then none else some o.position

/-- The distance from an entity to the mouse or a sprite. -/
def distanceTo (w : World) (id : EntityId) (target : String) : Except ScriptError Float := do
  let e ← w.entity id
  return match w.place? target with
    | some p => Stage.distance e.position p
    | none => unknownDistance

end SpriteStage.World

namespace SpriteStage.Value

/-- Is the value a whole number, not written with a point? -/
def isInteger (v : Value) : Bool :=
  Number.isWhole v.toNumber &&
    match v with
    | .text s => !s.toList.contains '.'
    | _ => true

/-- Draws a number between two bounds: a whole one if both bounds are. -/
def drawBetween (a b : Value) (r : SplitMix) : Float × SplitMix :=
  let x := a.toNumber
  let y := b.toNumber
  let low := if x ≤ y then x else y
  let high := if x ≤ y then y else x
  if a.isInteger && b.isInteger && high - low < 9e15 then
    let (n, r) := r.drawBetween (Number.toInt64 low) (Number.toInt64 high)
    (Number.ofInt64 n, r)
  else
    let (share, r) := r.drawUnit
    (low + share * (high - low), r)

end SpriteStage.Value
