import SpriteStage.Compile.Script

/-!
What a block makes of its slots.

A plan names the slots that a block looks into, in their order, says what is wrong with the block
itself, and tells what becomes of what the slots hold. To compile a block is to carry out its plan
(`statement_eq`, `reporter_eq`), so the kinds of blocks are gone through once, here.
-/

namespace SpriteStage.Compile

structure Plan (α : Type) where
  values : List String
  /-- The statement slots; they are looked into after the value slots. -/
  bodies : List String
  faults : List Complaint
  build : (String → Expr) → (String → List Stmt) → α

/-- The end of a loop's body that asks for the mouse anew before the condition is looked at. -/
def resync (condition : Expr) : List Stmt :=
  if condition.readsMouse then [.act .syncMouse] else []

namespace Plan

variable {α : Type}

/-! ### Plans of all kinds -/

def fixed (a : α) : Plan α :=
  ⟨[], [], [], fun _ _ => a⟩

def perform (a : Action) : Plan (List Stmt) :=
  fixed (synced (.act a))

def fault (complaint : Complaint) (a : α) : Plan α :=
  ⟨[], [], [complaint], fun _ _ => a⟩

def one (slot : String) (make : Expr → α) : Plan α :=
  ⟨[slot], [], [], fun value _ => make (value slot)⟩

def two (first second : String) (make : Expr → Expr → α) : Plan α :=
  ⟨[first, second], [], [], fun value _ => make (value first) (value second)⟩

/-- A plan for a block that names a variable; without one there is only `a`. -/
def named (b : Block) (a : α) (plan : String → Plan α) : Plan α :=
  match b.fieldText? "VARIABLE" with
  | some name => plan name
  | none => fault .withoutVariable a

def act (slot : String) (make : Expr → Action) : Plan (List Stmt) :=
  one slot fun e => synced (.act (make e))

def actTwo (first second : String) (make : Expr → Expr → Action) : Plan (List Stmt) :=
  two first second fun x y => synced (.act (make x y))

/-- The plan of a block in a chain. -/
def statement (b : Block) : Plan (List Stmt) :=
  match b.kind with
  | .moveSteps => act "STEPS" .moveSteps
  | .turnRight => act "DEGREES" .rotate
  | .turnLeft => act "DEGREES" fun e => .rotate (.arith .sub (.literal (.number 0)) e)
  | .goToXY => actTwo "X" "Y" .moveTo
  | .glideSecsToXY =>
    ⟨["SECS", "X", "Y"], [], [], fun value _ =>
      synced (.act (.glide (value "SECS") (value "X") (value "Y")))⟩
  | .changeXBy => act "DX" fun e => .moveBy e (.literal (.number 0))
  | .setX => act "X" fun e => .moveTo e (.sense .yPosition)
  | .changeYBy => act "DY" fun e => .moveBy (.literal (.number 0)) e
  | .setY => act "Y" fun e => .moveTo (.sense .xPosition) e
  | .pointInDirection => act "DIRECTION" .pointInDirection
  | .ifOnEdgeBounce => perform .bounceOnEdge
  | .sayForSecs => actTwo "MESSAGE" "SECS" fun text secs => .speech .say text (some secs)
  | .thinkForSecs => actTwo "MESSAGE" "SECS" fun text secs => .speech .think text (some secs)
  | .say => act "MESSAGE" fun e => .speech .say e none
  | .think => act "MESSAGE" fun e => .speech .think e none
  | .switchCostumeTo => act "COSTUME" .switchCostume
  | .nextCostume => perform .nextCostume
  | .switchBackdropTo => act "BACKDROP" .switchBackground
  | .nextBackdrop => perform .nextBackground
  | .changeSizeBy => act "CHANGE" .changeSize
  | .setSizeTo => act "SIZE" .setSize
  | .showSprite => perform .appear
  | .hideSprite => perform .vanish
  | .playSound => act "SOUND_MENU" fun e => .playSound e false
  | .playSoundUntilDone => act "SOUND_MENU" fun e => .playSound e true
  | .stopAllSounds => perform .stopAllSounds
  | .broadcast => act "BROADCAST_INPUT" .broadcast
  | .broadcastAndWait => actTwo "BROADCAST_INPUT" "SECS" .broadcastAndWait
  | .wait => act "DURATION" .wait
  | .repeatTimes =>
    ⟨["TIMES"], ["SUBSTACK"], [], fun value body =>
      synced (.repeatTimes (value "TIMES") (yielding (body "SUBSTACK")))⟩
  | .forever =>
    ⟨[], ["SUBSTACK"], [], fun _ body => synced (.forever (yielding (body "SUBSTACK")))⟩
  | .ifThen =>
    ⟨["CONDITION"], ["SUBSTACK"], [], fun value body =>
      synced (.branch (value "CONDITION") (yielding (body "SUBSTACK")) (yielding []))⟩
  | .ifElse =>
    ⟨["CONDITION"], ["SUBSTACK", "SUBSTACK2"], [], fun value body =>
      synced (.branch (value "CONDITION") (yielding (body "SUBSTACK"))
        (yielding (body "SUBSTACK2")))⟩
  | .waitUntil => one "CONDITION" fun e => [.waitUntil e e.readsMouse]
  | .repeatUntil =>
    ⟨["CONDITION"], ["SUBSTACK"], [], fun value body =>
      synced (.repeatUntil (value "CONDITION")
        (yielding (body "SUBSTACK" ++ resync (value "CONDITION"))))⟩
  | .stop =>
    perform (.stop (((b.fieldText? "STOP_OPTION").map StopScope.ofLabel).getD .all))
  | .resetTimer => perform .resetTimer
  | .setVariableTo => named b [] fun name => act "VALUE" (.setVar name)
  | .changeVariableBy => named b [] fun name => act "VALUE" (.changeVar name)
  | .showVariable => named b [] fun name => perform (.showVariable name)
  | .hideVariable => named b [] fun name => perform (.hideVariable name)
  | .whenFlagClicked | .whenKeyPressed | .whenThisSpriteClicked | .whenStageClicked
  | .whenBroadcastReceived => fault .hatInside []
  | .unknown => fault (.unsupportedStatement b.opcode) []
  | _ => fault .reporterAsStatement []

def express (e : Expr) : Plan (Option Expr) :=
  fixed (some e)

def operate (slot : String) (make : Expr → Expr) : Plan (Option Expr) :=
  one slot fun e => some (make e)

def combine (first second : String) (make : Expr → Expr → Expr) : Plan (Option Expr) :=
  two first second fun x y => some (make x y)

/-- The plan of a block in a value slot. -/
def reporter (b : Block) : Plan (Option Expr) :=
  match b.kind with
  | .mathNumber => express (fieldLiteral b "NUM")
  | .text => express (fieldLiteral b "TEXT")
  | .menu => express (.literal (b.fields.values.headD (.text "")))
  | .readVariable => named b none fun name => express (.var name)
  | .xPosition => express (.sense .xPosition)
  | .yPosition => express (.sense .yPosition)
  | .direction => express (.sense .direction)
  | .size => express (.sense .size)
  | .timer => express (.sense .timer)
  | .mouseX => express (.sense .mouseX)
  | .mouseY => express (.sense .mouseY)
  | .costumeNumberName =>
    express (.sense (if asksName b then .costumeName else .costumeNumber))
  | .backdropNumberName =>
    express (.sense (if asksName b then .backdropName else .backdropNumber))
  | .touchingObject => operate "TOUCHINGOBJECTMENU" .touching
  | .distanceTo => operate "DISTANCETOMENU" .distanceTo
  | .keyPressed => operate "KEY_OPTION" .keyPressed
  | .add => combine "NUM1" "NUM2" (.arith .add)
  | .subtract => combine "NUM1" "NUM2" (.arith .sub)
  | .multiply => combine "NUM1" "NUM2" (.arith .mul)
  | .divide => combine "NUM1" "NUM2" (.arith .div)
  | .mod => combine "NUM1" "NUM2" (.arith .mod)
  | .random => combine "FROM" "TO" .random
  | .gt => combine "OPERAND1" "OPERAND2" (.compare .gt)
  | .lt => combine "OPERAND1" "OPERAND2" (.compare .lt)
  | .equals => combine "OPERAND1" "OPERAND2" (.compare .eq)
  | .and => combine "OPERAND1" "OPERAND2" .and
  | .or => combine "OPERAND1" "OPERAND2" .or
  | .not => operate "OPERAND" .not
  | .join => combine "STRING1" "STRING2" .join
  | .letterOf => combine "LETTER" "STRING" .letterOf
  | .length => operate "STRING" .lengthOf
  | .contains => combine "STRING1" "STRING2" .contains
  | .round => operate "NUM" .round
  | .mathOp =>
    let label := (b.fieldText? "OPERATOR").getD ""
    match MathFunction.ofLabel? label with
    | some function => operate "NUM" (.math function)
    | none => { operate "NUM" id with faults := [.unknownFunction label] }
  | .unknown => fault (.unsupportedReporter b.opcode) none
  | _ => fault .statementAsValue none

/-! ### Carrying out a plan -/

/-- Asks for what the slots hold, one after the other; all other slots hold what `f` says. -/
def gather {β : Type} (ask : String → Step β) : List String → (String → β) → Step (String → β)
  | [], f => return f
  | slot :: rest, f => do
    let x ← ask slot
    let f ← gather ask rest f
    return fun other => if other = slot then x else f other

/-- Looks into the slots of the plan, complains, and builds. What `value` and `body` say of slots
that the plan does not name is never used. -/
def carryOut (plan : Plan α) (chain : Option String → Step (List Stmt))
    (input : Block → String → Step Expr) (b : Block) (value : String → Expr)
    (body : String → List Stmt) : Step α := do
  let value ← gather (input b) plan.values value
  let body ← gather (fun slot => chain (b.statementSlot? slot)) plan.bodies body
  plan.faults.forM (complain b.id)
  return plan.build value body

variable (chain : Option String → Step (List Stmt)) (input : Block → String → Step Expr) (b : Block)
  (value : String → Expr) (body : String → List Stmt)

theorem statement_eq :
    Compile.statement chain input b = (statement b).carryOut chain input b value body := by
  unfold Compile.statement statement
  generalize b.kind = kind
  cases kind with
  -- Variable blocks without a variable complain and look no further.
  | setVariableTo | changeVariableBy | showVariable | hideVariable =>
    simp only [named, variableName]
    cases b.fieldText? "VARIABLE" <;> rfl
  | _ => rfl

theorem reporter_eq :
    Compile.reporter input b = (reporter b).carryOut chain input b value body := by
  unfold Compile.reporter reporter
  generalize b.kind = kind
  cases kind with
  | readVariable =>
    simp only [named, variableName]
    cases b.fieldText? "VARIABLE" <;> rfl
  -- A function that is not known passes its argument through.
  | mathOp =>
    simp only
    cases MathFunction.ofLabel? ((b.fieldText? "OPERATOR").getD "") <;> rfl
  | _ => rfl

end Plan

end SpriteStage.Compile
