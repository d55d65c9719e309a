import SpriteStage.Script.Json
import SpriteStage.World.Spec

/-!
What goes between a host and the stage: commands in, events out. A patch holds the fields of an
entity that have changed; absent fields have not.
-/

namespace SpriteStage

/-- The place of an entity among the entities of a world. -/
abbrev EntityId := Nat

/-- An entity as messages name it. -/
def EntityId.text (id : EntityId) : String :=
  "#" ++ toString id

/-! ### Patches -/

/-- Changed fields of an entity. -/
structure EntityPatch where
  x : Option Float
  y : Option Float
  canvasX : Option Float
  canvasY : Option Float
  rotation : Option Float
  scale : Option Float
  visible : Option Bool
  costume : Option Nat
  deriving DecidableEq, Repr

namespace EntityPatch

def empty : EntityPatch :=
  ⟨none, none, none, none, none, none, none, none⟩

def present {α : Type} (name : String) (encode : α → Json) (value : Option α) :
    List (String × Json) :=
  (value.map fun a => (name, encode a)).toList

/-- The patch as JSON; absent fields are left out. -/
def toJson (p : EntityPatch) : Json :=
  .obj (present "x" .num p.x ++ present "y" .num p.y ++ present "canvas_x" .num p.canvasX ++
    present "canvas_y" .num p.canvasY ++ present "rotation" .num p.rotation ++
    present "scale" .num p.scale ++ present "visible" .bool p.visible ++
    present "costume" .nat p.costume)

def ofJson? (j : Json) : Option EntityPatch := do
  let f ← j.fields? ["x", "y", "canvas_x", "canvas_y", "rotation", "scale", "visible", "costume"]
  return ⟨← f.getOptionD "x" Json.float?, ← f.getOptionD "y" Json.float?,
    ← f.getOptionD "canvas_x" Json.float?, ← f.getOptionD "canvas_y" Json.float?,
    ← f.getOptionD "rotation" Json.float?, ← f.getOptionD "scale" Json.float?,
    ← f.getOptionD "visible" Json.bool?, ← f.getOptionD "costume" Json.nat?⟩

end EntityPatch

/-! ### Commands -/

/-- What a host asks for. -/
inductive HostCommand where
  | loadProgram (entities : List EntitySpec) (program : Program)
  | start
  | stop
  | keyDown (key : String)
  | keyUp (key : String)
  | clickEntity (entity : EntityId)
  /-- In stage coordinates. -/
  | mousePosition (x y : Float)
  | updateCode (entity : EntityId) (program : EntityProgram)
  | shutdown

namespace HostCommand

def toJson : HostCommand → Json
  | .loadProgram entities program =>
    .record "type" "load_program"
      [("entities", .list EntitySpec.toJson entities), ("program", program.toJson)]
  | .start => .record "type" "start" []
  | .stop => .record "type" "stop" []
  | .keyDown key => .record "type" "key_down" [("key", .str key)]
  | .keyUp key => .record "type" "key_up" [("key", .str key)]
  | .clickEntity entity => .record "type" "click_entity" [("entity", .nat entity)]
  | .mousePosition x y => .record "type" "mouse_position_response" [("x", .num x), ("y", .num y)]
  | .updateCode entity program =>
    .record "type" "update_entity_code" [("entity", .nat entity), ("program", program.toJson)]
  | .shutdown => .record "type" "shutdown" []

def ofJson? (j : Json) : Option HostCommand := do
  let (tag, rest) ← j.tagged? .alone "type" []
  match tag with
  | "load_program" =>
    let f ← rest.fields? ["entities", "program"]
    return .loadProgram (← f.get "entities" (Json.list? (EntitySpec.read .inside)))
      (← f.get "program" (Program.read .inside))
  | "start" =>
    let _ ← rest.fields? []
    return .start
  | "stop" =>
    let _ ← rest.fields? []
    return .stop
  | "key_down" =>
    let f ← rest.fields? ["key"]
    return .keyDown (← f.get "key" Json.str?)
  | "key_up" =>
    let f ← rest.fields? ["key"]
    return .keyUp (← f.get "key" Json.str?)
  | "click_entity" =>
    let f ← rest.fields? ["entity"]
    return .clickEntity (← f.get "entity" Json.nat?)
  | "mouse_position_response" =>
    let f ← rest.fields? ["x", "y"]
    return .mousePosition (← f.get "x" Json.float?) (← f.get "y" Json.float?)
  | "update_entity_code" =>
    let f ← rest.fields? ["entity", "program"]
    return .updateCode (← f.get "entity" Json.nat?) (← f.get "program" (EntityProgram.read .inside))
  | "shutdown" =>
    let _ ← rest.fields? []
    return .shutdown
  | _ => none

end HostCommand

/-! ### Events -/

/-- What a host is told. -/
inductive HostEvent where
  | entityStateChanged (entity : EntityId) (patch : EntityPatch)
  | runtimeError (entity : Option EntityId) (message : String)
  | executionStopped
  | switchBackground (background : EntityId) (costume : String)
  | speechBubble (entity : EntityId) (text : String) (kind : SpeechKind) (durationMs : Option Nat)
  | variableVisibilityChanged (name : String) (visible : Bool) (value : Value)
  | messageBroadcastObserved (name : String) (sender : EntityId) (timestampMs : Nat)
  | mousePositionRequest (entity : EntityId)
  | soundStarted (entity : EntityId) (sound : String)
  | soundsStopped
  deriving DecidableEq, Repr

namespace HostEvent

def toJson : HostEvent → Json
  | .entityStateChanged entity patch =>
    .record "type" "entity_state_changed" [("entity", .nat entity), ("patch", patch.toJson)]
  | .runtimeError entity message =>
    .record "type" "runtime_error" [("entity", .option .nat entity), ("message", .str message)]
  | .executionStopped => .record "type" "execution_stopped" []
  | .switchBackground background costume =>
    .record "type" "switch_background" [("background", .nat background), ("costume", .str costume)]
  | .speechBubble entity text kind durationMs =>
    .record "type" "speech_bubble"
      [("entity", .nat entity), ("text", .str text), ("kind", .str kind.name),
        ("duration_ms", .option .nat durationMs)]
  | .variableVisibilityChanged name visible value =>
    .record "type" "variable_visibility_changed"
      [("name", .str name), ("visible", .bool visible), ("value", value.toJson)]
  | .messageBroadcastObserved name sender timestampMs =>
    .record "type" "message_broadcast_observed"
      [("name", .str name), ("sender", .nat sender), ("timestamp_ms", .nat timestampMs)]
  | .mousePositionRequest entity =>
    .record "type" "mouse_position_request" [("entity", .nat entity)]
  | .soundStarted entity sound =>
    .record "type" "sound_started" [("entity", .nat entity), ("sound", .str sound)]
  | .soundsStopped => .record "type" "sounds_stopped" []

def ofJson? (j : Json) : Option HostEvent := do
  let (tag, rest) ← j.tagged? .alone "type" []
  match tag with
  | "entity_state_changed" =>
    let f ← rest.fields? ["entity", "patch"]
    return .entityStateChanged (← f.get "entity" Json.nat?) (← f.get "patch" EntityPatch.ofJson?)
  | "runtime_error" =>
    let f ← rest.fields? ["entity", "message"]
    return .runtimeError (← f.getOption "entity" Json.nat?) (← f.get "message" Json.str?)
  | "execution_stopped" =>
    let _ ← rest.fields? []
    return .executionStopped
  | "switch_background" =>
    let f ← rest.fields? ["background", "costume"]
    return .switchBackground (← f.get "background" Json.nat?) (← f.get "costume" Json.str?)
  | "speech_bubble" =>
    let f ← rest.fields? ["entity", "text", "kind", "duration_ms"]
    return .speechBubble (← f.get "entity" Json.nat?) (← f.get "text" Json.str?)
      (← f.get "kind" (Json.choice? .inside SpeechKind.ofName?))
      (← f.getOption "duration_ms" Json.nat?)
  | "variable_visibility_changed" =>
    let f ← rest.fields? ["name", "visible", "value"]
    return .variableVisibilityChanged (← f.get "name" Json.str?) (← f.get "visible" Json.bool?)
      (← f.get "value" Value.ofJson?)
  | "message_broadcast_observed" =>
    let f ← rest.fields? ["name", "sender", "timestamp_ms"]
    return .messageBroadcastObserved (← f.get "name" Json.str?) (← f.get "sender" Json.nat?)
      (← f.get "timestamp_ms" Json.nat?)
  | "mouse_position_request" =>
    let f ← rest.fields? ["entity"]
    return .mousePositionRequest (← f.get "entity" Json.nat?)
  | "sound_started" =>
    let f ← rest.fields? ["entity", "sound"]
    return .soundStarted (← f.get "entity" Json.nat?) (← f.get "sound" Json.str?)
  | "sounds_stopped" =>
    let _ ← rest.fields? []
    return .soundsStopped
  | _ => none

end HostEvent

end SpriteStage
