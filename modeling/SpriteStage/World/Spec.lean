import SpriteStage.Json.Record
import SpriteStage.Value

/-!
What an entity is made of: costumes, sounds, variables, and the description from which a world is
set up.
-/

namespace SpriteStage

inductive EntityKind where
  | sprite
  | background
  deriving DecidableEq, Repr

def EntityKind.name : EntityKind → String
  | .sprite => "sprite"
  | .background => "background"

def EntityKind.ofName? : String → Option EntityKind
  | "sprite" => some .sprite
  | "background" => some .background
  | _ => none

/-! ### Costumes -/

/-- A picture of an entity. -/
structure Costume where
  id : String
  name : String
  imageRef : String
  width : Float
  height : Float
  rotationCenter : Float × Float
  deriving DecidableEq, Repr

def Costume.toJson (c : Costume) : Json :=
  .obj [
    ("id", .str c.id),
    ("name", .str c.name),
    ("image_ref", .str c.imageRef),
    ("width", .num c.width),
    ("height", .num c.height),
    ("rotation_center", .pair c.rotationCenter)]

def Costume.ofJson? (j : Json) : Option Costume := do
  let f ← j.fields? ["id", "name", "image_ref", "width", "height", "rotation_center"]
  return ⟨← f.get "id" Json.str?, ← f.get "name" Json.str?, ← f.get "image_ref" Json.str?,
    ← f.get "width" Json.float?, ← f.get "height" Json.float?,
    ← f.get "rotation_center" Json.pair?⟩

/-! ### Sounds -/

structure Sound where
  id : String
  name : String
  durationSecs : Float
  deriving DecidableEq, Repr

def Sound.toJson (s : Sound) : Json :=
  .obj [("id", .str s.id), ("name", .str s.name), ("duration_secs", .num s.durationSecs)]

def Sound.ofJson? (j : Json) : Option Sound := do
  let f ← j.fields? ["id", "name", "duration_secs"]
  return ⟨← f.get "id" Json.str?, ← f.get "name" Json.str?, ← f.get "duration_secs" Json.float?⟩

/-! ### Variables -/

/-- A variable, and how it is shown on the stage. -/
structure Variable where
  value : Value
  visible : Bool
  displayPosition : Option (Float × Float)
  deriving DecidableEq, Repr

def Variable.toJson (v : Variable) : Json :=
  .obj [
    ("value", v.value.toJson),
    ("visible", .bool v.visible),
    ("display_position", .option .pair v.displayPosition)]

def Variable.ofJson? (j : Json) : Option Variable := do
  let f ← j.fields? ["value", "visible", "display_position"]
  return ⟨← f.get "value" Value.ofJson?, ← f.get "visible" Json.bool?,
    ← f.getOption "display_position" Json.pair?⟩

/-! ### Entities -/

structure EntitySpec where
  name : String
  kind : EntityKind
  x : Float
  y : Float
  direction : Float
  /-- In percent of the costume's own size. -/
  size : Float
  visible : Bool
  currentCostume : Nat
  costumes : List Costume
  sounds : List Sound
  vars : Dict Variable
  deriving DecidableEq

def EntitySpec.toJson (s : EntitySpec) : Json :=
  .obj [
    ("name", .str s.name),
    ("kind", .str s.kind.name),
    ("x", .num s.x),
    ("y", .num s.y),
    ("direction", .num s.direction),
    ("size", .num s.size),
    ("visible", .bool s.visible),
    ("current_costume", .nat s.currentCostume),
    ("costumes", .list Costume.toJson s.costumes),
    ("sounds", .list Sound.toJson s.sounds),
    ("variables", .dict Variable.toJson s.vars)]

def EntitySpec.read (standing : Json.Standing) (j : Json) : Option EntitySpec := do
  let f ← j.fields? ["name", "kind", "x", "y", "direction", "size", "visible", "current_costume",
    "costumes", "sounds", "variables"]
  return {
    name := ← f.get "name" Json.str?
    kind := ← f.get "kind" (Json.choice? standing EntityKind.ofName?)
    x := ← f.get "x" Json.float?
    y := ← f.get "y" Json.float?
    direction := ← f.get "direction" Json.float?
    size := ← f.get "size" Json.float?
    visible := ← f.get "visible" Json.bool?
    currentCostume := ← f.get "current_costume" Json.nat?
    costumes := ← f.get "costumes" (Json.list? Costume.ofJson?)
    sounds := ← f.get "sounds" (Json.list? Sound.ofJson?)
    vars := ← f.get "variables" (Json.dict? Variable.ofJson?) }

def EntitySpec.ofJson? : Json → Option EntitySpec :=
  EntitySpec.read .alone

end SpriteStage
