import SpriteStage.Script.Expr

/-!
Statements, scripts and programs.

An action is a statement without a nested body; it may ask its task to wait. A control statement
decides how its bodies run. A program holds, for each entity, the scripts under its hat blocks by
what starts them.
-/

namespace SpriteStage

/-- A bubble for speech or for thought. -/
inductive SpeechKind where
  | say
  | think
  deriving DecidableEq, Repr

/-- Which scripts a stop block stops. -/
inductive StopScope where
  | all
  | thisScript
  | thisSprite
  | otherScriptsInSprite
  deriving DecidableEq, Repr

/-- The scope that a block's menu calls by this label. -/
def StopScope.ofLabel (label : String) : StopScope :=
  match Name.message label with
  | "this script" => .thisScript
  | "this sprite" => .thisSprite
  | "other scripts in sprite" => .otherScriptsInSprite
  | "other scripts in stage" => .otherScriptsInSprite
  | _ => .all

/-- A statement without a body. -/
inductive Action where
  | moveTo (x y : Expr)
  | moveBy (dx dy : Expr)
  | moveSteps (steps : Expr)
  | glide (secs x y : Expr)
  | rotate (degrees : Expr)
  | pointInDirection (direction : Expr)
  | bounceOnEdge
  | setSize (percent : Expr)
  | changeSize (percent : Expr)
  | appear
  | vanish
  | wait (secs : Expr)
  | broadcast (message : Expr)
  | broadcastAndWait (message secs : Expr)
  | setVar (name : String) (value : Expr)
  | changeVar (name : String) (delta : Expr)
  | showVariable (name : String)
  | hideVariable (name : String)
  | speech (kind : SpeechKind) (text : Expr) (secs : Option Expr)
  | switchCostume (costume : Expr)
  | nextCostume
  | switchBackground (backdrop : Expr)
  | nextBackground
  | playSound (sound : Expr) (untilDone : Bool)
  | stopAllSounds
  | resetTimer
  | stop (scope : StopScope)
  /-- Asks the host where the mouse is before a statement needs it. -/
  | syncMouse
  /-- Lets the other tasks run. -/
  | yield
  deriving DecidableEq, Repr

inductive Stmt where
  | act (action : Action)
  | waitUntil (condition : Expr) (syncMouse : Bool)
  | repeatTimes (times : Expr) (body : List Stmt)
  | repeatUntil (condition : Expr) (body : List Stmt)
  | forever (body : List Stmt)
  | branch (condition : Expr) (thenBody elseBody : List Stmt)
  deriving Inhabited

/-! ### What a statement may do -/

/-- May the action make its task wait? -/
def Action.suspends : Action → Bool
  | .glide .. | .wait _ | .broadcastAndWait .. | .syncMouse | .yield => true
  | .speech _ _ secs => secs.isSome
  | .playSound _ untilDone => untilDone
  | _ => false

def Action.exprs : Action → List Expr
  | .moveTo x y => [x, y]
  | .moveBy dx dy => [dx, dy]
  | .glide secs x y => [secs, x, y]
  | .moveSteps e | .rotate e | .pointInDirection e | .setSize e | .changeSize e | .wait e
  | .broadcast e | .setVar _ e | .changeVar _ e | .switchCostume e | .switchBackground e
  | .playSound e _ => [e]
  | .broadcastAndWait message secs => [message, secs]
  | .speech _ text secs => text :: secs.toList
  | .bounceOnEdge | .appear | .vanish | .showVariable _ | .hideVariable _ | .nextCostume
  | .nextBackground | .stopAllSounds | .resetTimer | .stop _ | .syncMouse | .yield => []

namespace Stmt

/-- May the statement make its task wait? Control statements count, since their bodies yield. -/
def suspends : Stmt → Bool
  | .act action => action.suspends
  | _ => true

/-- The expressions that the statement itself evaluates, without those of its bodies. -/
def exprs : Stmt → List Expr
  | .act action => action.exprs
  | .waitUntil condition _ | .repeatUntil condition _ | .branch condition _ _ => [condition]
  | .repeatTimes times _ => [times]
  | .forever _ => []

def readsMouse (s : Stmt) : Bool :=
  s.exprs.any Expr.readsMouse

/-- Is it the yield at the end of a loop's body? -/
def isYield : Stmt → Bool
  | .act .yield => true
  | _ => false

end Stmt

def endsInYield (body : List Stmt) : Bool :=
  match body.getLast? with
  | some last => last.isYield
  | none => false

/-! ### Scripts and programs -/

/-- The statements under a hat block. -/
structure Script where
  /-- The id of the hat block. -/
  hat : String
  body : List Stmt
  deriving Inhabited

/-- The scripts of an entity by what starts them. -/
structure EntityProgram where
  onStart : Option Script
  onKey : Dict (List Script)
  onClick : List Script
  onMessage : Dict (List Script)

namespace EntityProgram

def empty : EntityProgram :=
  ⟨none, .empty, [], .empty⟩

instance : Inhabited EntityProgram := ⟨empty⟩

def scriptCount (p : EntityProgram) : Nat :=
  p.onStart.toList.length + p.onKey.values.flatten.length + p.onClick.length +
    p.onMessage.values.flatten.length

end EntityProgram

/-- The programs of all entities, in their order. -/
structure Program where
  entities : List EntityProgram
  deriving Inhabited

end SpriteStage
