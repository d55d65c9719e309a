import SpriteStage.Json.Record
import SpriteStage.Script.Stmt

/-!
The JSON form of scripts. Expressions carry the tag `expr`, statements the tag `op`. Decoding goes
as deep as the value is nested.
-/

namespace SpriteStage

/-! ### Names of choices -/

def ArithOp.name : ArithOp → String
  | .add => "add"
  | .sub => "sub"
  | .mul => "mul"
  | .div => "div"
  | .mod => "mod"

def ArithOp.ofName? : String → Option ArithOp
  | "add" => some .add
  | "sub" => some .sub
  | "mul" => some .mul
  | "div" => some .div
  | "mod" => some .mod
  | _ => none

def CompareOp.name : CompareOp → String
  | .lt => "lt"
  | .gt => "gt"
  | .eq => "eq"

def CompareOp.ofName? : String → Option CompareOp
  | "lt" => some .lt
  | "gt" => some .gt
  | "eq" => some .eq
  | _ => none

def MathFunction.name : MathFunction → String
  | .abs => "abs"
  | .floor => "floor"
  | .ceiling => "ceiling"
  | .sqrt => "sqrt"
  | .sin => "sin"
  | .cos => "cos"
  | .tan => "tan"
  | .asin => "asin"
  | .acos => "acos"
  | .atan => "atan"
  | .ln => "ln"
  | .log => "log"
  | .exp => "exp"
  | .pow10 => "pow10"

def MathFunction.ofName? : String → Option MathFunction
  | "abs" => some .abs
  | "floor" => some .floor
  | "ceiling" => some .ceiling
  | "sqrt" => some .sqrt
  | "sin" => some .sin
  | "cos" => some .cos
  | "tan" => some .tan
  | "asin" => some .asin
  | "acos" => some .acos
  | "atan" => some .atan
  | "ln" => some .ln
  | "log" => some .log
  | "exp" => some .exp
  | "pow10" => some .pow10
  | _ => none

def Query.name : Query → String
  | .xPosition => "x_position"
  | .yPosition => "y_position"
  | .direction => "direction"
  | .size => "size"
  | .costumeNumber => "costume_number"
  | .costumeName => "costume_name"
  | .backdropNumber => "backdrop_number"
  | .backdropName => "backdrop_name"
  | .timer => "timer"
  | .mouseX => "mouse_x"
  | .mouseY => "mouse_y"

def Query.ofName? : String → Option Query
  | "x_position" => some .xPosition
  | "y_position" => some .yPosition
  | "direction" => some .direction
  | "size" => some .size
  | "costume_number" => some .costumeNumber
  | "costume_name" => some .costumeName
  | "backdrop_number" => some .backdropNumber
  | "backdrop_name" => some .backdropName
  | "timer" => some .timer
  | "mouse_x" => some .mouseX
  | "mouse_y" => some .mouseY
  | _ => none

def SpeechKind.name : SpeechKind → String
  | .say => "say"
  | .think => "think"

def SpeechKind.ofName? : String → Option SpeechKind
  | "say" => some .say
  | "think" => some .think
  | _ => none

def StopScope.name : StopScope → String
  | .all => "all"
  | .thisScript => "this_script"
  | .thisSprite => "this_sprite"
  | .otherScriptsInSprite => "other_scripts_in_sprite"

def StopScope.ofName? : String → Option StopScope
  | "all" => some .all
  | "this_script" => some .thisScript
  | "this_sprite" => some .thisSprite
  | "other_scripts_in_sprite" => some .otherScriptsInSprite
  | _ => none

/-! ### Expressions -/

def Expr.toJson : Expr → Json
  | .literal value => .record "expr" "Literal" [("value", value.toJson)]
  | .var name => .record "expr" "Var" [("name", .str name)]
  | .arith op a b =>
    .record "expr" "Arith" [("op", .str op.name), ("left", a.toJson), ("right", b.toJson)]
  | .compare op a b =>
    .record "expr" "Compare" [("op", .str op.name), ("left", a.toJson), ("right", b.toJson)]
  | .and a b => .record "expr" "And" [("left", a.toJson), ("right", b.toJson)]
  | .or a b => .record "expr" "Or" [("left", a.toJson), ("right", b.toJson)]
  | .not a => .record "expr" "Not" [("operand", a.toJson)]
  | .join a b => .record "expr" "Join" [("left", a.toJson), ("right", b.toJson)]
  | .letterOf index text =>
    .record "expr" "LetterOf" [("index", index.toJson), ("text", text.toJson)]
  | .lengthOf text => .record "expr" "LengthOf" [("text", text.toJson)]
  | .contains text needle =>
    .record "expr" "Contains" [("text", text.toJson), ("needle", needle.toJson)]
  | .round value => .record "expr" "Round" [("value", value.toJson)]
  | .math function value =>
    .record "expr" "Math" [("func", .str function.name), ("value", value.toJson)]
  | .random low high => .record "expr" "Random" [("from", low.toJson), ("to", high.toJson)]
  | .sense query => .record "expr" "Sense" [("query", .str query.name)]
  | .keyPressed key => .record "expr" "KeyPressed" [("key", key.toJson)]
  | .touching target => .record "expr" "Touching" [("target", target.toJson)]
  | .distanceTo target => .record "expr" "DistanceTo" [("target", target.toJson)]

/-- The tags of expressions, in their order. -/
def Expr.kinds : List String :=
  ["Literal", "Var", "Arith", "Compare", "And", "Or", "Not", "Join", "LetterOf", "LengthOf",
    "Contains", "Round", "Math", "Random", "Sense", "KeyPressed", "Touching", "DistanceTo"]

/-- The expression that JSON stands for, nested no deeper than `fuel`. -/
def Expr.decode (standing : Json.Standing) : Nat → Json → Option Expr
  | 0, _ => none
  | fuel + 1, j => do
    let (tag, rest) ← j.tagged? standing "expr" Expr.kinds
    match tag with
    | "Literal" =>
      let f ← rest.fields? ["value"]
      return .literal (← f.get "value" Value.ofJson?)
    | "Var" =>
      let f ← rest.fields? ["name"]
      return .var (← f.get "name" Json.str?)
    | "Arith" =>
      let f ← rest.fields? ["op", "left", "right"]
      return .arith (← f.get "op" (Json.choice? .inside ArithOp.ofName?))
        (← f.get "left" (decode .inside fuel)) (← f.get "right" (decode .inside fuel))
    | "Compare" =>
      let f ← rest.fields? ["op", "left", "right"]
      return .compare (← f.get "op" (Json.choice? .inside CompareOp.ofName?))
        (← f.get "left" (decode .inside fuel)) (← f.get "right" (decode .inside fuel))
    | "And" =>
      let f ← rest.fields? ["left", "right"]
      return .and (← f.get "left" (decode .inside fuel)) (← f.get "right" (decode .inside fuel))
    | "Or" =>
      let f ← rest.fields? ["left", "right"]
      return .or (← f.get "left" (decode .inside fuel)) (← f.get "right" (decode .inside fuel))
    | "Not" =>
      let f ← rest.fields? ["operand"]
      return .not (← f.get "operand" (decode .inside fuel))
    | "Join" =>
      let f ← rest.fields? ["left", "right"]
      return .join (← f.get "left" (decode .inside fuel)) (← f.get "right" (decode .inside fuel))
    | "LetterOf" =>
      let f ← rest.fields? ["index", "text"]
      return .letterOf (← f.get "index" (decode .inside fuel))
        (← f.get "text" (decode .inside fuel))
    | "LengthOf" =>
      let f ← rest.fields? ["text"]
      return .lengthOf (← f.get "text" (decode .inside fuel))
    | "Contains" =>
      let f ← rest.fields? ["text", "needle"]
      return .contains (← f.get "text" (decode .inside fuel))
        (← f.get "needle" (decode .inside fuel))
    | "Round" =>
      let f ← rest.fields? ["value"]
      return .round (← f.get "value" (decode .inside fuel))
    | "Math" =>
      let f ← rest.fields? ["func", "value"]
      return .math (← f.get "func" (Json.choice? .inside MathFunction.ofName?))
        (← f.get "value" (decode .inside fuel))
    | "Random" =>
      let f ← rest.fields? ["from", "to"]
      return .random (← f.get "from" (decode .inside fuel)) (← f.get "to" (decode .inside fuel))
    | "Sense" =>
      let f ← rest.fields? ["query"]
      return .sense (← f.get "query" (Json.choice? .inside Query.ofName?))
    | "KeyPressed" =>
      let f ← rest.fields? ["key"]
      return .keyPressed (← f.get "key" (decode .inside fuel))
    | "Touching" =>
      let f ← rest.fields? ["target"]
      return .touching (← f.get "target" (decode .inside fuel))
    | "DistanceTo" =>
      let f ← rest.fields? ["target"]
      return .distanceTo (← f.get "target" (decode .inside fuel))
    | _ => none

def Expr.read (standing : Json.Standing) (j : Json) : Option Expr :=
  Expr.decode standing j.depth j

/-- The expression that JSON by itself stands for. -/
def Expr.ofJson? : Json → Option Expr :=
  Expr.read .alone

/-- The expression that a part of a tagged record stands for. -/
def Expr.ofPart? : Json → Option Expr :=
  Expr.read .inside

/-! ### Statements -/

def Action.toJson : Action → Json
  | .moveTo x y => .record "op" "MoveTo" [("x", x.toJson), ("y", y.toJson)]
  | .moveBy dx dy => .record "op" "MoveBy" [("dx", dx.toJson), ("dy", dy.toJson)]
  | .moveSteps steps => .record "op" "MoveSteps" [("steps", steps.toJson)]
  | .glide secs x y =>
    .record "op" "Glide" [("secs", secs.toJson), ("x", x.toJson), ("y", y.toJson)]
  | .rotate degrees => .record "op" "Rotate" [("degrees", degrees.toJson)]
  | .pointInDirection direction =>
    .record "op" "PointInDirection" [("direction", direction.toJson)]
  | .bounceOnEdge => .record "op" "BounceOnEdge" []
  | .setSize percent => .record "op" "SetSize" [("percent", percent.toJson)]
  | .changeSize percent => .record "op" "ChangeSize" [("percent", percent.toJson)]
  | .appear => .record "op" "Show" []
  | .vanish => .record "op" "Hide" []
  | .wait secs => .record "op" "Wait" [("secs", secs.toJson)]
  | .broadcast message => .record "op" "Broadcast" [("message", message.toJson)]
  | .broadcastAndWait message secs =>
    .record "op" "BroadcastAndWait" [("message", message.toJson), ("secs", secs.toJson)]
  | .setVar name value => .record "op" "SetVar" [("name", .str name), ("value", value.toJson)]
  | .changeVar name delta => .record "op" "ChangeVar" [("name", .str name), ("delta", delta.toJson)]
  | .showVariable name => .record "op" "ShowVariable" [("name", .str name)]
  | .hideVariable name => .record "op" "HideVariable" [("name", .str name)]
  | .speech kind text secs =>
    .record "op" "Speech"
      [("kind", .str kind.name), ("text", text.toJson), ("secs", .option Expr.toJson secs)]
  | .switchCostume costume => .record "op" "SwitchCostume" [("costume", costume.toJson)]
  | .nextCostume => .record "op" "NextCostume" []
  | .switchBackground backdrop => .record "op" "SwitchBackground" [("backdrop", backdrop.toJson)]
  | .nextBackground => .record "op" "NextBackground" []
  | .playSound sound untilDone =>
    .record "op" "PlaySound" [("sound", sound.toJson), ("until_done", .bool untilDone)]
  | .stopAllSounds => .record "op" "StopAllSounds" []
  | .resetTimer => .record "op" "ResetTimer" []
  | .stop scope => .record "op" "Stop" [("scope", .str scope.name)]
  | .syncMouse => .record "op" "SyncMouse" []
  | .yield => .record "op" "Yield" []

mutual
def Stmt.toJson : Stmt → Json
  | .act action => action.toJson
  | .waitUntil condition syncMouse =>
    .record "op" "WaitUntil" [("condition", condition.toJson), ("sync_mouse", .bool syncMouse)]
  | .repeatTimes times body =>
    .record "op" "RepeatN" [("times", times.toJson), ("body", .arr (Stmt.listToJson body))]
  | .repeatUntil condition body =>
    .record "op" "RepeatUntil"
      [("condition", condition.toJson), ("body", .arr (Stmt.listToJson body))]
  | .forever body => .record "op" "Forever" [("body", .arr (Stmt.listToJson body))]
  | .branch condition thenBody elseBody =>
    .record "op" "If"
      [("condition", condition.toJson), ("then_body", .arr (Stmt.listToJson thenBody)),
        ("else_body", .arr (Stmt.listToJson elseBody))]

def Stmt.listToJson : List Stmt → List Json
  | [] => []
  | s :: rest => s.toJson :: Stmt.listToJson rest
end

/-- The action with a tag and fields, if the tag is that of an action. -/
def Action.decode (tag : String) (rest : Json) : Option Action := do
  match tag with
  | "MoveTo" =>
    let f ← rest.fields? ["x", "y"]
    return .moveTo (← f.get "x" Expr.ofPart?) (← f.get "y" Expr.ofPart?)
  | "MoveBy" =>
    let f ← rest.fields? ["dx", "dy"]
    return .moveBy (← f.get "dx" Expr.ofPart?) (← f.get "dy" Expr.ofPart?)
  | "MoveSteps" =>
    let f ← rest.fields? ["steps"]
    return .moveSteps (← f.get "steps" Expr.ofPart?)
  | "Glide" =>
    let f ← rest.fields? ["secs", "x", "y"]
    return .glide (← f.get "secs" Expr.ofPart?) (← f.get "x" Expr.ofPart?)
      (← f.get "y" Expr.ofPart?)
  | "Rotate" =>
    let f ← rest.fields? ["degrees"]
    return .rotate (← f.get "degrees" Expr.ofPart?)
  | "PointInDirection" =>
    let f ← rest.fields? ["direction"]
    return .pointInDirection (← f.get "direction" Expr.ofPart?)
  | "BounceOnEdge" =>
    let _ ← rest.fields? []
    return .bounceOnEdge
  | "SetSize" =>
    let f ← rest.fields? ["percent"]
    return .setSize (← f.get "percent" Expr.ofPart?)
  | "ChangeSize" =>
    let f ← rest.fields? ["percent"]
    return .changeSize (← f.get "percent" Expr.ofPart?)
  | "Show" =>
    let _ ← rest.fields? []
    return .appear
  | "Hide" =>
    let _ ← rest.fields? []
    return .vanish
  | "Wait" =>
    let f ← rest.fields? ["secs"]
    return .wait (← f.get "secs" Expr.ofPart?)
  | "Broadcast" =>
    let f ← rest.fields? ["message"]
    return .broadcast (← f.get "message" Expr.ofPart?)
  | "BroadcastAndWait" =>
    let f ← rest.fields? ["message", "secs"]
    return .broadcastAndWait (← f.get "message" Expr.ofPart?) (← f.get "secs" Expr.ofPart?)
  | "SetVar" =>
    let f ← rest.fields? ["name", "value"]
    return .setVar (← f.get "name" Json.str?) (← f.get "value" Expr.ofPart?)
  | "ChangeVar" =>
    let f ← rest.fields? ["name", "delta"]
    return .changeVar (← f.get "name" Json.str?) (← f.get "delta" Expr.ofPart?)
  | "ShowVariable" =>
    let f ← rest.fields? ["name"]
    return .showVariable (← f.get "name" Json.str?)
  | "HideVariable" =>
    let f ← rest.fields? ["name"]
    return .hideVariable (← f.get "name" Json.str?)
  | "Speech" =>
    let f ← rest.fields? ["kind", "text", "secs"]
    return .speech (← f.get "kind" (Json.choice? .inside SpeechKind.ofName?))
      (← f.get "text" Expr.ofPart?) (← f.getOption "secs" Expr.ofPart?)
  | "SwitchCostume" =>
    let f ← rest.fields? ["costume"]
    return .switchCostume (← f.get "costume" Expr.ofPart?)
  | "NextCostume" =>
    let _ ← rest.fields? []
    return .nextCostume
  | "SwitchBackground" =>
    let f ← rest.fields? ["backdrop"]
    return .switchBackground (← f.get "backdrop" Expr.ofPart?)
  | "NextBackground" =>
    let _ ← rest.fields? []
    return .nextBackground
  | "PlaySound" =>
    let f ← rest.fields? ["sound", "until_done"]
    return .playSound (← f.get "sound" Expr.ofPart?) (← f.get "until_done" Json.bool?)
  | "StopAllSounds" =>
    let _ ← rest.fields? []
    return .stopAllSounds
  | "ResetTimer" =>
    let _ ← rest.fields? []
    return .resetTimer
  | "Stop" =>
    let f ← rest.fields? ["scope"]
    return .stop (← f.get "scope" (Json.choice? .inside StopScope.ofName?))
  | "SyncMouse" =>
    let _ ← rest.fields? []
    return .syncMouse
  | "Yield" =>
    let _ ← rest.fields? []
    return .yield
  | _ => none

def Stmt.kinds : List String :=
  ["MoveTo", "MoveBy", "MoveSteps", "Glide", "Rotate", "PointInDirection", "BounceOnEdge",
    "SetSize", "ChangeSize", "Show", "Hide", "Wait", "WaitUntil", "RepeatN", "RepeatUntil",
    "Forever", "If", "Broadcast", "BroadcastAndWait", "SetVar", "ChangeVar", "ShowVariable",
    "HideVariable", "Speech", "SwitchCostume", "NextCostume", "SwitchBackground",
    "NextBackground", "PlaySound", "StopAllSounds", "ResetTimer", "Stop", "SyncMouse", "Yield"]

/-- The statement that JSON stands for, nested no deeper than `fuel`. -/
def Stmt.decode (standing : Json.Standing) : Nat → Json → Option Stmt
  | 0, _ => none
  | fuel + 1, j => do
    let (tag, rest) ← j.tagged? standing "op" Stmt.kinds
    match tag with
    | "WaitUntil" =>
      let f ← rest.fields? ["condition", "sync_mouse"]
      return .waitUntil (← f.get "condition" Expr.ofPart?) (← f.get "sync_mouse" Json.bool?)
    | "RepeatN" =>
      let f ← rest.fields? ["times", "body"]
      return .repeatTimes (← f.get "times" Expr.ofPart?)
        (← f.get "body" (Json.list? (decode .inside fuel)))
    | "RepeatUntil" =>
      let f ← rest.fields? ["condition", "body"]
      return .repeatUntil (← f.get "condition" Expr.ofPart?)
        (← f.get "body" (Json.list? (decode .inside fuel)))
    | "Forever" =>
      let f ← rest.fields? ["body"]
      return .forever (← f.get "body" (Json.list? (decode .inside fuel)))
    | "If" =>
      let f ← rest.fields? ["condition", "then_body", "else_body"]
      return .branch (← f.get "condition" Expr.ofPart?)
        (← f.get "then_body" (Json.list? (decode .inside fuel)))
        (← f.get "else_body" (Json.list? (decode .inside fuel)))
    | tag => return .act (← Action.decode tag rest)

def Stmt.read (standing : Json.Standing) (j : Json) : Option Stmt :=
  Stmt.decode standing j.depth j

def Stmt.ofJson? : Json → Option Stmt :=
  Stmt.read .alone

/-! ### Scripts and programs -/

def Script.toJson (s : Script) : Json :=
  .obj [("hat", .str s.hat), ("body", .arr (Stmt.listToJson s.body))]

def Script.read (standing : Json.Standing) (j : Json) : Option Script := do
  let f ← j.fields? ["hat", "body"]
  return ⟨← f.get "hat" Json.str?, ← f.get "body" (Json.list? (Stmt.read standing))⟩

def Script.ofJson? : Json → Option Script :=
  Script.read .alone

def EntityProgram.toJson (p : EntityProgram) : Json :=
  .obj [
    ("on_start", .option Script.toJson p.onStart),
    ("on_key", .dict (.list Script.toJson) p.onKey),
    ("on_click", .list Script.toJson p.onClick),
    ("on_message", .dict (.list Script.toJson) p.onMessage)]

def EntityProgram.read (standing : Json.Standing) (j : Json) : Option EntityProgram := do
  let f ← j.fields? ["on_start", "on_key", "on_click", "on_message"]
  return ⟨← f.getOption "on_start" (Script.read standing),
    ← f.get "on_key" (Json.dict? (Json.list? (Script.read standing))),
    ← f.get "on_click" (Json.list? (Script.read standing)),
    ← f.get "on_message" (Json.dict? (Json.list? (Script.read standing)))⟩

def EntityProgram.ofJson? : Json → Option EntityProgram :=
  EntityProgram.read .alone

def Program.toJson (p : Program) : Json :=
  .obj [("entities", .list EntityProgram.toJson p.entities)]

def Program.read (standing : Json.Standing) (j : Json) : Option Program := do
  let f ← j.fields? ["entities"]
  return ⟨← f.get "entities" (Json.list? (EntityProgram.read standing))⟩

def Program.ofJson? : Json → Option Program :=
  Program.read .alone

end SpriteStage
