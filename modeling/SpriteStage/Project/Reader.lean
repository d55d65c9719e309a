import SpriteStage.Media.Digest
import SpriteStage.Media.Png
import SpriteStage.Media.Svg
import SpriteStage.Project.Blocks
import SpriteStage.Project.Document
import SpriteStage.Project.Error
import SpriteStage.Stage.Geometry

/-!
Reading a project file.

A project file lists its targets, the background and the sprites, and the monitors that show
variables on the stage. Missing details take defaults; a target needs a name, a mark whether it is
the stage, and blocks. The background comes first among the entities, so that the sprites count from
one.
-/

namespace SpriteStage.Project

/-- The files that come with a project. -/
abbrev Assets := Dict ByteArray

/-! ### Fields with defaults -/

def text? (j : Json) (name : String) : Option String :=
  (j.field? name).bind Json.str?

def number? (j : Json) (name : String) : Option Float :=
  (j.field? name).bind Json.float?

/-- A count, zero if there is none. -/
def count (j : Json) (name : String) : Nat :=
  ((j.field? name).bind Json.nat?).getD 0

def bool? (j : Json) (name : String) : Option Bool :=
  (j.field? name).bind Json.bool?

/-- The items of a list field, none if it is no list. -/
def items (j : Json) (name : String) : List Json :=
  ((j.field? name).bind Json.arr?).getD []

/-! ### Parts of a target -/

/-- A variable: a list of its name and its value. -/
def variableOf? (j : Json) : Option VariableDoc :=
  match j with
  | .arr (.str name :: rest) =>
    some ⟨name, (rest.head?.bind Value.ofJson?).getD (.number 0), false, none⟩
  | _ => none

/-- The variables of a target, in the order of their ids. -/
def vars (target : Json) : List VariableDoc :=
  (((target.field? "variables").bind Json.obj?).getD []).filterMap fun (_, j) => variableOf? j

def sound (j : Json) : SoundDoc :=
  let name := (text? j "name").getD "sound"
  ⟨name, (text? j "assetId").getD name, count j "sampleCount", count j "rate"⟩

/-- The size of a costume's picture, where its format tells it. -/
def pictureSize (data : ByteArray) (format fileName : String) :
    Except LoadError (Option (Float × Float)) :=
  if format = "svg" then
    match Media.Markup.rootAttributes? data with
    | some attributes => .ok (Media.svgSize? attributes)
    | none => .error (.badDrawing fileName)
  else if format = "png" then .ok (Media.pngSize? data)
  else .ok none

/-- A costume; without a measured size it reaches as far to each side as its centre lies inside. -/
def costume (assets : Assets) (j : Json) (index : Nat) : Except LoadError CostumeDoc := do
  let name := (text? j "name").getD s!"costume{index + 1}"
  let format := Text.lower ((text? j "dataFormat").getD "svg")
  let declared := text? j "assetId"
  let fileName :=
    ((text? j "md5ext").or (declared.map fun id => id ++ "." ++ format)).getD ""
  let centerX := (number? j "rotationCenterX").getD 0
  let centerY := (number? j "rotationCenterY").getD 0
  let resolution := ((number? j "bitmapResolution").filter (· > 0)).getD 1
  let data := assets.get? fileName
  let measured ←
    match data with
    | some bytes => pictureSize bytes format fileName
    | none => pure none
  let (width, height) := measured.getD (2 * centerX, 2 * centerY)
  return {
    name
    assetId := declared.getD ((data.map Media.digestText).getD name)
    fileName
    width := Stage.atLeast 0 (width / resolution)
    height := Stage.atLeast 0 (height / resolution)
    centerX
    centerY }

def costumes (assets : Assets) (target : Json) : Except LoadError (List CostumeDoc) :=
  (items target "costumes").zipIdx.mapM fun (j, index) => costume assets j index

/-! ### Targets -/

def entity (assets : Assets) (target : Json) : Except LoadError EntityDoc := do
  let some name := text? target "name" | throw .noName
  let some isStage := bool? target "isStage" | throw (.noStageFlag name)
  let some blocks := (target.field? "blocks").bind Json.obj? | throw (.noBlocks name)
  return {
    name
    kind := if isStage then .background else .sprite
    x := (number? target "x").getD 0
    y := (number? target "y").getD 0
    direction := (number? target "direction").getD 90
    size := (number? target "size").getD 100
    visible := (bool? target "visible").getD true
    currentCostume := count target "currentCostume"
    costumes := ← costumes assets target
    sounds := (items target "sounds").map sound
    vars := vars target
    blocks := blockTree blocks }

def isBackground (e : EntityDoc) : Bool :=
  e.kind == .background

/-- The entities with the backgrounds in front, otherwise in their order. -/
def backgroundFirst (entities : List EntityDoc) : List EntityDoc :=
  entities.filter isBackground ++ entities.filter fun e => !isBackground e

/-! ### Monitors -/

/-- What a monitor says about a variable. -/
structure Monitor where
  /-- The sprite that owns the variable; without one it is the background. -/
  owner : Option String
  name : String
  visible : Bool
  position : Option (Float × Float)

/-- The monitor of a variable; those of other blocks do not count. -/
def monitor? (j : Json) : Option Monitor := do
  guard (text? j "opcode" = some "data_variable")
  let name ← (j.field? "params").bind (text? · "VARIABLE")
  let position :=
    match number? j "x", number? j "y" with
    | some x, some y => some (x, y)
    | _, _ => none
  return ⟨text? j "spriteName", name, (bool? j "visible").getD false, position⟩

def Monitor.owns (m : Monitor) (e : EntityDoc) : Bool :=
  match m.owner with
  | some sprite => e.name == sprite
  | none => isBackground e

/-- The variables with the first one of a name shown as the monitor says. -/
def Monitor.applyTo (m : Monitor) : List VariableDoc → List VariableDoc
  | [] => []
  | v :: rest =>
    if v.name = m.name then { v with visible := m.visible, displayPosition := m.position } :: rest
    else v :: m.applyTo rest

def Monitor.apply (m : Monitor) (entities : List EntityDoc) : List EntityDoc :=
  entities.map fun e => if m.owns e then { e with vars := m.applyTo e.vars } else e

/-! ### The whole file -/

def read (file : Json) (assets : Assets) : Except LoadError Project := do
  let some targets := (file.field? "targets").bind Json.arr? | throw .noTargets
  let entities ← targets.mapM (entity assets)
  let monitors := (items file "monitors").filterMap monitor?
  return ⟨monitors.foldl (fun entities m => m.apply entities) (backgroundFirst entities)⟩

end SpriteStage.Project
