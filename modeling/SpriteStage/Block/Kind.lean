import SpriteStage.Value

/-!
Kinds of blocks.

`ofOpcode` reads the kind off a block's opcode; several opcodes of literals and menus share a kind,
and every opcode that is not in the table is of the kind `unknown`. `trigger?` tells what starts the
script under a hat block. `slots` lists the value slots of a kind with the value that an empty slot
stands for.
-/

namespace SpriteStage

inductive BlockKind where
  | whenFlagClicked
  | whenKeyPressed
  | whenThisSpriteClicked
  | whenStageClicked
  | whenBroadcastReceived
  | moveSteps
  | turnRight
  | turnLeft
  | goToXY
  | glideSecsToXY
  | changeXBy
  | setX
  | changeYBy
  | setY
  | pointInDirection
  | ifOnEdgeBounce
  | xPosition
  | yPosition
  | direction
  | sayForSecs
  | say
  | thinkForSecs
  | think
  | switchCostumeTo
  | nextCostume
  | switchBackdropTo
  | nextBackdrop
  | changeSizeBy
  | setSizeTo
  | showSprite
  | hideSprite
  | costumeNumberName
  | backdropNumberName
  | size
  | playSound
  | playSoundUntilDone
  | stopAllSounds
  | broadcast
  | broadcastAndWait
  | wait
  | repeatTimes
  | forever
  | ifThen
  | ifElse
  | waitUntil
  | repeatUntil
  | stop
  | touchingObject
  | distanceTo
  | keyPressed
  | mouseX
  | mouseY
  | timer
  | resetTimer
  | add
  | subtract
  | multiply
  | divide
  | random
  | gt
  | lt
  | equals
  | and
  | or
  | not
  | join
  | letterOf
  | length
  | contains
  | mod
  | round
  | mathOp
  | readVariable
  | setVariableTo
  | changeVariableBy
  | showVariable
  | hideVariable
  | mathNumber
  | text
  | menu
  | unknown
  deriving DecidableEq, Repr

/-- What starts the script under a hat block. -/
inductive Trigger where
  | start
  | key
  | click
  | message
  deriving DecidableEq, Repr

namespace BlockKind

def opcodes : List (String × BlockKind) :=
  [("event_whenflagclicked", .whenFlagClicked),
   ("event_whenkeypressed", .whenKeyPressed),
   ("event_whenthisspriteclicked", .whenThisSpriteClicked),
   ("event_whenstageclicked", .whenStageClicked),
   ("event_whenbroadcastreceived", .whenBroadcastReceived),
   ("motion_movesteps", .moveSteps),
   ("motion_turnright", .turnRight),
   ("motion_turnleft", .turnLeft),
   ("motion_gotoxy", .goToXY),
   ("motion_glidesecstoxy", .glideSecsToXY),
   ("motion_changexby", .changeXBy),
   ("motion_setx", .setX),
   ("motion_changeyby", .changeYBy),
   ("motion_sety", .setY),
   ("motion_pointindirection", .pointInDirection),
   ("motion_ifonedgebounce", .ifOnEdgeBounce),
   ("motion_xposition", .xPosition),
   ("motion_yposition", .yPosition),
   ("motion_direction", .direction),
   ("looks_sayforsecs", .sayForSecs),
   ("looks_say", .say),
   ("looks_thinkforsecs", .thinkForSecs),
   ("looks_think", .think),
   ("looks_switchcostumeto", .switchCostumeTo),
   ("looks_nextcostume", .nextCostume),
   ("looks_switchbackdropto", .switchBackdropTo),
   ("looks_nextbackdrop", .nextBackdrop),
   ("looks_changesizeby", .changeSizeBy),
   ("looks_setsizeto", .setSizeTo),
   ("looks_show", .showSprite),
   ("looks_hide", .hideSprite),
   ("looks_costumenumbername", .costumeNumberName),
   ("looks_backdropnumbername", .backdropNumberName),
   ("looks_size", .size),
   ("sound_play", .playSound),
   ("sound_playuntildone", .playSoundUntilDone),
   ("sound_stopallsounds", .stopAllSounds),
   ("event_broadcast", .broadcast),
   ("event_broadcastandwait", .broadcastAndWait),
   ("control_wait", .wait),
   ("control_repeat", .repeatTimes),
   ("control_forever", .forever),
   ("control_if", .ifThen),
   ("control_if_else", .ifElse),
   ("control_wait_until", .waitUntil),
   ("control_repeat_until", .repeatUntil),
   ("control_stop", .stop),
   ("sensing_touchingobject", .touchingObject),
   ("sensing_distanceto", .distanceTo),
   ("sensing_keypressed", .keyPressed),
   ("sensing_mousex", .mouseX),
   ("sensing_mousey", .mouseY),
   ("sensing_timer", .timer),
   ("sensing_resettimer", .resetTimer),
   ("operator_add", .add),
   ("operator_subtract", .subtract),
   ("operator_multiply", .multiply),
   ("operator_divide", .divide),
   ("operator_random", .random),
   ("operator_gt", .gt),
   ("operator_lt", .lt),
   ("operator_equals", .equals),
   ("operator_and", .and),
   ("operator_or", .or),
   ("operator_not", .not),
   ("operator_join", .join),
   ("operator_letter_of", .letterOf),
   ("operator_length", .length),
   ("operator_contains", .contains),
   ("operator_mod", .mod),
   ("operator_round", .round),
   ("operator_mathop", .mathOp),
   ("data_variable", .readVariable),
   ("data_setvariableto", .setVariableTo),
   ("data_changevariableby", .changeVariableBy),
   ("data_showvariable", .showVariable),
   ("data_hidevariable", .hideVariable),
   ("math_number", .mathNumber),
   ("math_positive_number", .mathNumber),
   ("math_whole_number", .mathNumber),
   ("math_integer", .mathNumber),
   ("math_angle", .mathNumber),
   ("text", .text),
   ("looks_costume", .menu),
   ("looks_backdrops", .menu),
   ("sound_sounds_menu", .menu),
   ("event_broadcast_menu", .menu),
   ("sensing_touchingobjectmenu", .menu),
   ("sensing_distancetomenu", .menu),
   ("sensing_keyoptions", .menu)]

def ofOpcode (opcode : String) : BlockKind :=
  match opcodes.find? (·.1 == opcode) with
  | some (_, kind) => kind
  | none => .unknown

/-- The first opcode of a kind. -/
def opcode (kind : BlockKind) : String :=
  match opcodes.find? (·.2 == kind) with
  | some (opcode, _) => opcode
  | none => "unknown"

/-- All kinds that an opcode has, in the order of the table. -/
def all : List BlockKind :=
  [.whenFlagClicked, .whenKeyPressed, .whenThisSpriteClicked, .whenStageClicked,
   .whenBroadcastReceived, .moveSteps, .turnRight, .turnLeft, .goToXY, .glideSecsToXY,
   .changeXBy, .setX, .changeYBy, .setY, .pointInDirection, .ifOnEdgeBounce, .xPosition,
   .yPosition, .direction, .sayForSecs, .say, .thinkForSecs, .think, .switchCostumeTo,
   .nextCostume, .switchBackdropTo, .nextBackdrop, .changeSizeBy, .setSizeTo, .showSprite,
   .hideSprite, .costumeNumberName, .backdropNumberName, .size, .playSound,
   .playSoundUntilDone, .stopAllSounds, .broadcast, .broadcastAndWait, .wait, .repeatTimes,
   .forever, .ifThen, .ifElse, .waitUntil, .repeatUntil, .stop, .touchingObject, .distanceTo,
   .keyPressed, .mouseX, .mouseY, .timer, .resetTimer, .add, .subtract, .multiply, .divide,
   .random, .gt, .lt, .equals, .and, .or, .not, .join, .letterOf, .length, .contains, .mod,
   .round, .mathOp, .readVariable, .setVariableTo, .changeVariableBy, .showVariable,
   .hideVariable, .mathNumber, .text, .menu]

/-- What starts the script under a block of this kind. -/
def trigger? : BlockKind → Option Trigger
  | .whenFlagClicked => some .start
  | .whenKeyPressed => some .key
  | .whenThisSpriteClicked => some .click
  | .whenStageClicked => some .click
  | .whenBroadcastReceived => some .message
  | _ => none

def isHat (kind : BlockKind) : Bool :=
  kind.trigger?.isSome

/-! ### Names -/

def name : BlockKind → String
  | .whenFlagClicked => "WhenFlagClicked"
  | .whenKeyPressed => "WhenKeyPressed"
  | .whenThisSpriteClicked => "WhenThisSpriteClicked"
  | .whenStageClicked => "WhenStageClicked"
  | .whenBroadcastReceived => "WhenBroadcastReceived"
  | .moveSteps => "MoveSteps"
  | .turnRight => "TurnRight"
  | .turnLeft => "TurnLeft"
  | .goToXY => "GoToXY"
  | .glideSecsToXY => "GlideSecsToXY"
  | .changeXBy => "ChangeXBy"
  | .setX => "SetX"
  | .changeYBy => "ChangeYBy"
  | .setY => "SetY"
  | .pointInDirection => "PointInDirection"
  | .ifOnEdgeBounce => "IfOnEdgeBounce"
  | .xPosition => "XPosition"
  | .yPosition => "YPosition"
  | .direction => "Direction"
  | .sayForSecs => "SayForSecs"
  | .say => "Say"
  | .thinkForSecs => "ThinkForSecs"
  | .think => "Think"
  | .switchCostumeTo => "SwitchCostumeTo"
  | .nextCostume => "NextCostume"
  | .switchBackdropTo => "SwitchBackdropTo"
  | .nextBackdrop => "NextBackdrop"
  | .changeSizeBy => "ChangeSizeBy"
  | .setSizeTo => "SetSizeTo"
  | .showSprite => "Show"
  | .hideSprite => "Hide"
  | .costumeNumberName => "CostumeNumberName"
  | .backdropNumberName => "BackdropNumberName"
  | .size => "Size"
  | .playSound => "PlaySound"
  | .playSoundUntilDone => "PlaySoundUntilDone"
  | .stopAllSounds => "StopAllSounds"
  | .broadcast => "Broadcast"
  | .broadcastAndWait => "BroadcastAndWait"
  | .wait => "Wait"
  | .repeatTimes => "Repeat"
  | .forever => "Forever"
  | .ifThen => "If"
  | .ifElse => "IfElse"
  | .waitUntil => "WaitUntil"
  | .repeatUntil => "RepeatUntil"
  | .stop => "Stop"
  | .touchingObject => "TouchingObject"
  | .distanceTo => "DistanceTo"
  | .keyPressed => "KeyPressed"
  | .mouseX => "MouseX"
  | .mouseY => "MouseY"
  | .timer => "Timer"
  | .resetTimer => "ResetTimer"
  | .add => "Add"
  | .subtract => "Subtract"
  | .multiply => "Multiply"
  | .divide => "Divide"
  | .random => "Random"
  | .gt => "Gt"
  | .lt => "Lt"
  | .equals => "Equals"
  | .and => "And"
  | .or => "Or"
  | .not => "Not"
  | .join => "Join"
  | .letterOf => "LetterOf"
  | .length => "Length"
  | .contains => "Contains"
  | .mod => "Mod"
  | .round => "Round"
  | .mathOp => "MathOp"
  | .readVariable => "Variable"
  | .setVariableTo => "SetVariableTo"
  | .changeVariableBy => "ChangeVariableBy"
  | .showVariable => "ShowVariable"
  | .hideVariable => "HideVariable"
  | .mathNumber => "MathNumber"
  | .text => "Text"
  | .menu => "Menu"
  | .unknown => "Unknown"

def ofName? (name : String) : Option BlockKind :=
  (BlockKind.unknown :: all).find? (·.name == name)

/-! ### Slots -/

/-- Seconds that a broadcast holds its sender when nothing else is said. -/
def broadcastSecs : Float :=
  1

/-- The value slots of a kind and what each stands for when it is empty. -/
def slots : BlockKind → List (String × Value)
  | .moveSteps => [("STEPS", .number 0)]
  | .turnRight => [("DEGREES", .number 0)]
  | .turnLeft => [("DEGREES", .number 0)]
  | .goToXY => [("X", .number 0), ("Y", .number 0)]
  | .glideSecsToXY => [("SECS", .number 0), ("X", .number 0), ("Y", .number 0)]
  | .changeXBy => [("DX", .number 0)]
  | .setX => [("X", .number 0)]
  | .changeYBy => [("DY", .number 0)]
  | .setY => [("Y", .number 0)]
  | .pointInDirection => [("DIRECTION", .number 90)]
  | .sayForSecs => [("MESSAGE", .text ""), ("SECS", .number 0)]
  | .say => [("MESSAGE", .text "")]
  | .thinkForSecs => [("MESSAGE", .text ""), ("SECS", .number 0)]
  | .think => [("MESSAGE", .text "")]
  | .switchCostumeTo => [("COSTUME", .text "")]
  | .switchBackdropTo => [("BACKDROP", .text "")]
  | .changeSizeBy => [("CHANGE", .number 0)]
  | .setSizeTo => [("SIZE", .number 100)]
  | .playSound => [("SOUND_MENU", .text "")]
  | .playSoundUntilDone => [("SOUND_MENU", .text "")]
  | .broadcast => [("BROADCAST_INPUT", .text "")]
  | .broadcastAndWait => [("BROADCAST_INPUT", .text ""), ("SECS", .number broadcastSecs)]
  | .wait => [("DURATION", .number 0)]
  | .repeatTimes => [("TIMES", .number 0)]
  | .ifThen => [("CONDITION", .bool false)]
  | .ifElse => [("CONDITION", .bool false)]
  | .waitUntil => [("CONDITION", .bool false)]
  | .repeatUntil => [("CONDITION", .bool false)]
  | .touchingObject => [("TOUCHINGOBJECTMENU", .text "")]
  | .distanceTo => [("DISTANCETOMENU", .text "")]
  | .keyPressed => [("KEY_OPTION", .text "")]
  | .add => [("NUM1", .number 0), ("NUM2", .number 0)]
  | .subtract => [("NUM1", .number 0), ("NUM2", .number 0)]
  | .multiply => [("NUM1", .number 0), ("NUM2", .number 0)]
  | .divide => [("NUM1", .number 0), ("NUM2", .number 0)]
  | .random => [("FROM", .number 0), ("TO", .number 0)]
  | .gt => [("OPERAND1", .text ""), ("OPERAND2", .text "")]
  | .lt => [("OPERAND1", .text ""), ("OPERAND2", .text "")]
  | .equals => [("OPERAND1", .text ""), ("OPERAND2", .text "")]
  | .and => [("OPERAND1", .bool false), ("OPERAND2", .bool false)]
  | .or => [("OPERAND1", .bool false), ("OPERAND2", .bool false)]
  | .not => [("OPERAND", .bool false)]
  | .join => [("STRING1", .text ""), ("STRING2", .text "")]
  | .letterOf => [("LETTER", .number 0), ("STRING", .text "")]
  | .length => [("STRING", .text "")]
  | .contains => [("STRING1", .text ""), ("STRING2", .text "")]
  | .mod => [("NUM1", .number 0), ("NUM2", .number 0)]
  | .round => [("NUM", .number 0)]
  | .mathOp => [("NUM", .number 0)]
  | .setVariableTo => [("VALUE", .number 0)]
  | .changeVariableBy => [("VALUE", .number 0)]
  | _ => []

def slotDefault? (kind : BlockKind) (slot : String) : Option Value :=
  Dict.lookupIn slot kind.slots

/-- What a slot stands for when it is empty; zero for a slot that the kind does not have. -/
def slotDefault (kind : BlockKind) (slot : String) : Value :=
  (kind.slotDefault? slot).getD (.number 0)

end BlockKind

end SpriteStage
