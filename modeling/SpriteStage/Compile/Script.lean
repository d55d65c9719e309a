import SpriteStage.Block.Tree
import SpriteStage.Compile.Warning
import SpriteStage.Script.Stmt

/-!
From the blocks under a hat to the statements of a script.

Links between blocks may lead nowhere or in circles, so each block is used once in a script: the ids
met so far are kept, and a link back to one of them is cut. What a single block means is said by
`statement` and `reporter` over the meaning of the links, which `chain` and `input` supply.
-/

namespace SpriteStage.Compile

/-- What has happened so far in a script: the ids met, and what was wrong, in order. -/
structure Progress where
  visited : List String
  complaints : List (String × Complaint)

abbrev Step := StateM Progress

def complain (id : String) (complaint : Complaint) : Step Unit :=
  modify fun p => { p with complaints := p.complaints ++ [(id, complaint)] }

/-- Notes that a block is met; tells if it is for the first time. -/
def visit (id : String) : Step Bool := do
  let p ← get
  if p.visited.contains id then return false
  set { p with visited := id :: p.visited }
  return true

def defaultOf (b : Block) (slot : String) : Step Expr := do
  if (b.kind.slotDefault? slot).isNone then complain b.id (.withoutDefault slot b.opcode)
  return .literal (b.kind.slotDefault slot)

/-- The literal in a field, the empty text if there is none. -/
def fieldLiteral (b : Block) (field : String) : Expr :=
  .literal ((b.fields.get? field).getD (.text ""))

def variableName (b : Block) : Step (Option String) := do
  let name := b.fieldText? "VARIABLE"
  if name.isNone then complain b.id .withoutVariable
  return name

/-- A statement, after asking for the mouse if it needs it. -/
def synced (s : Stmt) : List Stmt :=
  if s.readsMouse then [.act .syncMouse, s] else [s]

/-- A body that lets the other tasks run at its end. -/
def yielding (body : List Stmt) : List Stmt :=
  body ++ [.act .yield]

/-! ### Single blocks -/

/-- Does the reporter ask for a name and not for a number? -/
def asksName (b : Block) : Bool :=
  b.fieldText? "NUMBER_NAME" == some "name"

/-- Two inputs, the first one first. -/
def inputs (input : Block → String → Step Expr) (b : Block) (first second : String)
    (make : Expr → Expr → Expr) : Step (Option Expr) := do
  let x ← input b first
  let y ← input b second
  return some (make x y)

/-- The expression of a block in a value slot. -/
def reporter (input : Block → String → Step Expr) (b : Block) : Step (Option Expr) := do
  match b.kind with
  | .mathNumber => return some (fieldLiteral b "NUM")
  | .text => return some (fieldLiteral b "TEXT")
  | .menu => return some (.literal (b.fields.values.headD (.text "")))
  | .readVariable => return (← variableName b).map .var
  | .xPosition => return some (.sense .xPosition)
  | .yPosition => return some (.sense .yPosition)
  | .direction => return some (.sense .direction)
  | .size => return some (.sense .size)
  | .timer => return some (.sense .timer)
  | .mouseX => return some (.sense .mouseX)
  | .mouseY => return some (.sense .mouseY)
  | .costumeNumberName => return some (.sense (if asksName b then .costumeName else .costumeNumber))
  | .backdropNumberName =>
    return some (.sense (if asksName b then .backdropName else .backdropNumber))
  | .touchingObject => return some (.touching (← input b "TOUCHINGOBJECTMENU"))
  | .distanceTo => return some (.distanceTo (← input b "DISTANCETOMENU"))
  | .keyPressed => return some (.keyPressed (← input b "KEY_OPTION"))
  | .add => inputs input b "NUM1" "NUM2" (.arith .add)
  | .subtract => inputs input b "NUM1" "NUM2" (.arith .sub)
  | .multiply => inputs input b "NUM1" "NUM2" (.arith .mul)
  | .divide => inputs input b "NUM1" "NUM2" (.arith .div)
  | .mod => inputs input b "NUM1" "NUM2" (.arith .mod)
  | .random => inputs input b "FROM" "TO" .random
  | .gt => inputs input b "OPERAND1" "OPERAND2" (.compare .gt)
  | .lt => inputs input b "OPERAND1" "OPERAND2" (.compare .lt)
  | .equals => inputs input b "OPERAND1" "OPERAND2" (.compare .eq)
  | .and => inputs input b "OPERAND1" "OPERAND2" .and
  | .or => inputs input b "OPERAND1" "OPERAND2" .or
  | .not => return some (.not (← input b "OPERAND"))
  | .join => inputs input b "STRING1" "STRING2" .join
  | .letterOf => inputs input b "LETTER" "STRING" .letterOf
  | .length => return some (.lengthOf (← input b "STRING"))
  | .contains => inputs input b "STRING1" "STRING2" .contains
  | .round => return some (.round (← input b "NUM"))
  | .mathOp =>
    let value ← input b "NUM"
    let label := (b.fieldText? "OPERATOR").getD ""
    match MathFunction.ofLabel? label with
    | some function => return some (.math function value)
    | none =>
      complain b.id (.unknownFunction label)
      return some value
  | .unknown =>
    complain b.id (.unsupportedReporter b.opcode)
    return none
  | _ =>
    complain b.id .statementAsValue
    return none

def action (input : Block → String → Step Expr) (b : Block) (slot : String) (make : Expr → Action) :
    Step (List Stmt) := do
  return synced (.act (make (← input b slot)))

/-- The statements of a block in a chain. -/
def statement (chain : Option String → Step (List Stmt)) (input : Block → String → Step Expr)
    (b : Block) : Step (List Stmt) := do
  match b.kind with
  | .moveSteps => action input b "STEPS" .moveSteps
  | .turnRight => action input b "DEGREES" .rotate
  | .turnLeft => action input b "DEGREES" fun e => .rotate (.arith .sub (.literal (.number 0)) e)
  | .goToXY =>
    let x ← input b "X"
    let y ← input b "Y"
    return synced (.act (.moveTo x y))
  | .glideSecsToXY =>
    let secs ← input b "SECS"
    let x ← input b "X"
    let y ← input b "Y"
    return synced (.act (.glide secs x y))
  | .changeXBy => action input b "DX" fun e => .moveBy e (.literal (.number 0))
  | .setX => action input b "X" fun e => .moveTo e (.sense .yPosition)
  | .changeYBy => action input b "DY" fun e => .moveBy (.literal (.number 0)) e
  | .setY => action input b "Y" fun e => .moveTo (.sense .xPosition) e
  | .pointInDirection => action input b "DIRECTION" .pointInDirection
  | .ifOnEdgeBounce => return [.act .bounceOnEdge]
  | .sayForSecs =>
    let text ← input b "MESSAGE"
    let secs ← input b "SECS"
    return synced (.act (.speech .say text (some secs)))
  | .thinkForSecs =>
    let text ← input b "MESSAGE"
    let secs ← input b "SECS"
    return synced (.act (.speech .think text (some secs)))
  | .say => action input b "MESSAGE" fun e => .speech .say e none
  | .think => action input b "MESSAGE" fun e => .speech .think e none
  | .switchCostumeTo => action input b "COSTUME" .switchCostume
  | .nextCostume => return [.act .nextCostume]
  | .switchBackdropTo => action input b "BACKDROP" .switchBackground
  | .nextBackdrop => return [.act .nextBackground]
  | .changeSizeBy => action input b "CHANGE" .changeSize
  | .setSizeTo => action input b "SIZE" .setSize
  | .showSprite => return [.act .appear]
  | .hideSprite => return [.act .vanish]
  | .playSound => action input b "SOUND_MENU" fun e => .playSound e false
  | .playSoundUntilDone => action input b "SOUND_MENU" fun e => .playSound e true
  | .stopAllSounds => return [.act .stopAllSounds]
  | .broadcast => action input b "BROADCAST_INPUT" .broadcast
  | .broadcastAndWait =>
    let message ← input b "BROADCAST_INPUT"
    let secs ← input b "SECS"
    return synced (.act (.broadcastAndWait message secs))
  | .wait => action input b "DURATION" .wait
  | .repeatTimes =>
    let times ← input b "TIMES"
    let body ← chain (b.statementSlot? "SUBSTACK")
    return synced (.repeatTimes times (yielding body))
  | .forever =>
    let body ← chain (b.statementSlot? "SUBSTACK")
    return synced (.forever (yielding body))
  | .ifThen =>
    let condition ← input b "CONDITION"
    let body ← chain (b.statementSlot? "SUBSTACK")
    return synced (.branch condition (yielding body) (yielding []))
  | .ifElse =>
    let condition ← input b "CONDITION"
    let thenBody ← chain (b.statementSlot? "SUBSTACK")
    let elseBody ← chain (b.statementSlot? "SUBSTACK2")
    return synced (.branch condition (yielding thenBody) (yielding elseBody))
  | .waitUntil =>
    -- it asks for the mouse itself, each time it looks at its condition
    let condition ← input b "CONDITION"
    return [.waitUntil condition condition.readsMouse]
  | .repeatUntil =>
    let condition ← input b "CONDITION"
    let body ← chain (b.statementSlot? "SUBSTACK")
    let sync := if condition.readsMouse then [.act .syncMouse] else []
    return synced (.repeatUntil condition (yielding (body ++ sync)))
  | .stop =>
    let scope := ((b.fieldText? "STOP_OPTION").map StopScope.ofLabel).getD .all
    return [.act (.stop scope)]
  | .resetTimer => return [.act .resetTimer]
  | .setVariableTo =>
    match ← variableName b with
    | some name => action input b "VALUE" (.setVar name)
    | none => return []
  | .changeVariableBy =>
    match ← variableName b with
    | some name => action input b "VALUE" (.changeVar name)
    | none => return []
  | .showVariable => return ((← variableName b).map fun name => .act (.showVariable name)).toList
  | .hideVariable => return ((← variableName b).map fun name => .act (.hideVariable name)).toList
  | .whenFlagClicked | .whenKeyPressed | .whenThisSpriteClicked | .whenStageClicked
  | .whenBroadcastReceived =>
    complain b.id .hatInside
    return []
  | .unknown =>
    complain b.id (.unsupportedStatement b.opcode)
    return []
  | _ =>
    complain b.id .reporterAsStatement
    return []

/-! ### Links -/

mutual
/-- The statements of the chain from an id on. -/
def chain (lookup : String → Option Block) : Nat → Option String → Step (List Stmt)
  | _, none => return []
  | 0, some _ => return []
  | fuel + 1, some id => do
    if ← visit id then
      match lookup id with
      | some b =>
        let first ← statement (chain lookup fuel) (input lookup fuel) b
        let rest ← chain lookup fuel b.next
        return first ++ rest
      | none =>
        complain id .chainMissing
        return []
    else
      complain id .chainLoops
      return []

/-- The expression in a value slot, its default if the slot holds none. -/
def input (lookup : String → Option Block) : Nat → Block → String → Step Expr
  | 0, b, slot => defaultOf b slot
  | fuel + 1, b, slot =>
    match b.valueSlot? slot with
    | none => defaultOf b slot
    | some id => do
      if ← visit id then
        match lookup id with
        | some child =>
          match ← reporter (input lookup fuel) child with
          | some e => return e
          | none => defaultOf b slot
        | none =>
          complain id .inputMissing
          defaultOf b slot
      else
        complain id .reporterLoops
        defaultOf b slot
end

/-- The statements under a hat block, and what was wrong with its blocks. No path through the links
meets more blocks than there are, so `fuel` above their number is never used up. -/
def body (lookup : String → Option Block) (fuel : Nat) (hat : Block) :
    List Stmt × List (String × Complaint) :=
  let (stmts, progress) := (chain lookup fuel hat.next).run ⟨[hat.id], []⟩
  (stmts, progress.complaints)

end SpriteStage.Compile
