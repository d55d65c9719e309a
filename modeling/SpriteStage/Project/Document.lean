import SpriteStage.Block.Tree
import SpriteStage.Text.Lower
import SpriteStage.World.Spec

/-!
Project documents: the entities of a project with their blocks, costumes, sounds and variables.
-/

namespace SpriteStage

/-- A costume with its measured size. -/
structure CostumeDoc where
  name : String
  assetId : String
  fileName : String
  width : Float
  height : Float
  centerX : Float
  centerY : Float
  deriving DecidableEq, Repr

/-- A sound by its samples. -/
structure SoundDoc where
  name : String
  assetId : String
  sampleCount : Nat
  rate : Nat
  deriving DecidableEq, Repr

structure VariableDoc where
  name : String
  value : Value
  visible : Bool
  displayPosition : Option (Float × Float)
  deriving DecidableEq, Repr

structure EntityDoc where
  name : String
  kind : EntityKind
  x : Float
  y : Float
  direction : Float
  /-- In percent of the costume's own size. -/
  size : Float
  visible : Bool
  currentCostume : Nat
  costumes : List CostumeDoc
  sounds : List SoundDoc
  vars : List VariableDoc
  blocks : BlockTree
  deriving DecidableEq

structure Project where
  entities : List EntityDoc
  deriving DecidableEq

def SoundDoc.durationSecs (s : SoundDoc) : Float :=
  if s.rate = 0 then 0 else Float.ofNat s.sampleCount / Float.ofNat s.rate

/-- The place of the first entity with a name, up to the case of the letters A to Z. -/
def Project.entityIndex? (p : Project) (name : String) : Option Nat :=
  p.entities.findIdx? fun e => Text.equalFold e.name name

/-! ### From documents to worlds -/

def CostumeDoc.costume (c : CostumeDoc) : Costume :=
  ⟨c.assetId, c.name, c.fileName, c.width, c.height, (c.centerX, c.centerY)⟩

def SoundDoc.sound (s : SoundDoc) : Sound :=
  ⟨s.assetId, s.name, s.durationSecs⟩

def VariableDoc.variable (v : VariableDoc) : Variable :=
  ⟨v.value, v.visible, v.displayPosition⟩

/-- The description of an entity; of variables with one name the last counts. -/
def EntityDoc.spec (e : EntityDoc) : EntitySpec where
  name := e.name
  kind := e.kind
  x := e.x
  y := e.y
  direction := e.direction
  size := e.size
  visible := e.visible
  currentCostume := e.currentCostume
  costumes := e.costumes.map CostumeDoc.costume
  sounds := e.sounds.map SoundDoc.sound
  vars := .ofList (e.vars.map fun v => (v.name, v.variable))

def Project.specs (p : Project) : List EntitySpec :=
  p.entities.map EntityDoc.spec

/-! ### JSON form -/

def CostumeDoc.toJson (c : CostumeDoc) : Json :=
  .obj [
    ("name", .str c.name),
    ("asset_id", .str c.assetId),
    ("md5ext", .str c.fileName),
    ("width", .num c.width),
    ("height", .num c.height),
    ("rotation_center_x", .num c.centerX),
    ("rotation_center_y", .num c.centerY)]

def CostumeDoc.ofJson? (j : Json) : Option CostumeDoc := do
  let f ← j.fields? ["name", "asset_id", "md5ext", "width", "height", "rotation_center_x",
    "rotation_center_y"]
  return ⟨← f.get "name" Json.str?, ← f.get "asset_id" Json.str?, ← f.get "md5ext" Json.str?,
    ← f.get "width" Json.float?, ← f.get "height" Json.float?,
    ← f.get "rotation_center_x" Json.float?, ← f.get "rotation_center_y" Json.float?⟩

def SoundDoc.toJson (s : SoundDoc) : Json :=
  .obj [
    ("name", .str s.name),
    ("asset_id", .str s.assetId),
    ("sample_count", .nat s.sampleCount),
    ("rate", .nat s.rate)]

def SoundDoc.ofJson? (j : Json) : Option SoundDoc := do
  let f ← j.fields? ["name", "asset_id", "sample_count", "rate"]
  return ⟨← f.get "name" Json.str?, ← f.get "asset_id" Json.str?, ← f.get "sample_count" Json.nat?,
    ← f.get "rate" Json.nat?⟩

def VariableDoc.toJson (v : VariableDoc) : Json :=
  .obj [
    ("name", .str v.name),
    ("value", v.value.toJson),
    ("visible", .bool v.visible),
    ("display_position", .option .pair v.displayPosition)]

def VariableDoc.ofJson? (j : Json) : Option VariableDoc := do
  let f ← j.fields? ["name", "value", "visible", "display_position"]
  return ⟨← f.get "name" Json.str?, ← f.get "value" Value.ofJson?, ← f.get "visible" Json.bool?,
    ← f.getOption "display_position" Json.pair?⟩

def EntityDoc.toJson (e : EntityDoc) : Json :=
  .obj [
    ("name", .str e.name),
    ("kind", .str e.kind.name),
    ("x", .num e.x),
    ("y", .num e.y),
    ("direction", .num e.direction),
    ("size", .num e.size),
    ("visible", .bool e.visible),
    ("current_costume", .nat e.currentCostume),
    ("costumes", .list CostumeDoc.toJson e.costumes),
    ("sounds", .list SoundDoc.toJson e.sounds),
    ("variables", .list VariableDoc.toJson e.vars),
    ("blocks", e.blocks.toJson)]

def EntityDoc.ofJson? (j : Json) : Option EntityDoc := do
  let f ← j.fields? ["name", "kind", "x", "y", "direction", "size", "visible", "current_costume",
    "costumes", "sounds", "variables", "blocks"]
  return {
    name := ← f.get "name" Json.str?
    kind := ← f.get "kind" (Json.choice? .alone EntityKind.ofName?)
    x := ← f.get "x" Json.float?
    y := ← f.get "y" Json.float?
    direction := ← f.get "direction" Json.float?
    size := ← f.get "size" Json.float?
    visible := ← f.get "visible" Json.bool?
    currentCostume := ← f.get "current_costume" Json.nat?
    costumes := ← f.get "costumes" (Json.list? CostumeDoc.ofJson?)
    sounds := ← f.get "sounds" (Json.list? SoundDoc.ofJson?)
    vars := ← f.get "variables" (Json.list? VariableDoc.ofJson?)
    blocks := ← f.get "blocks" BlockTree.ofJson? }

def Project.toJson (p : Project) : Json :=
  .obj [("entities", .list EntityDoc.toJson p.entities)]

def Project.ofJson? (j : Json) : Option Project := do
  let f ← j.fields? ["entities"]
  return ⟨← f.get "entities" (Json.list? EntityDoc.ofJson?)⟩

end SpriteStage
