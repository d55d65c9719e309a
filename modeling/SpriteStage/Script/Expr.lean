import SpriteStage.Name
import SpriteStage.Value

/-!
Expressions of scripts. Their evaluation never waits.
-/

namespace SpriteStage

inductive ArithOp where
  | add
  | sub
  | mul
  | div
  | mod
  deriving DecidableEq, Repr

inductive CompareOp where
  | lt
  | gt
  | eq
  deriving DecidableEq, Repr

/-- A function of one number. -/
inductive MathFunction where
  | abs
  | floor
  | ceiling
  | sqrt
  | sin
  | cos
  | tan
  | asin
  | acos
  | atan
  | ln
  | log
  | exp
  | pow10
  deriving DecidableEq, Repr

/-- The function that a block's menu calls by this label. -/
def MathFunction.ofLabel? (label : String) : Option MathFunction :=
  match Name.message label with
  | "abs" => some .abs
  | "floor" => some .floor
  | "ceiling" => some .ceiling
  | "sqrt" => some .sqrt
  | "sin" => some .sin
  | "cos" => some .cos
  | "tan" => some .tan
  | "asin" => some .asin
  | "acos" => some .acos
  | "atan" => some .atan
  | "ln" => some .ln
  | "log" => some .log
  | "e ^" => some .exp
  | "10 ^" => some .pow10
  | _ => none

/-- A property of the entity or of the stage that scripts can ask for. -/
inductive Query where
  | xPosition
  | yPosition
  | direction
  | size
  | costumeNumber
  | costumeName
  | backdropNumber
  | backdropName
  | timer
  | mouseX
  | mouseY
  deriving DecidableEq, Repr

/-- Does the answer depend on where the mouse is? -/
def Query.readsMouse : Query → Bool
  | .mouseX | .mouseY => true
  | _ => false

def mouseTarget : String :=
  "_mouse_"

def edgeTarget : String :=
  "_edge_"

inductive Expr where
  | literal (value : Value)
  | var (name : String)
  | arith (op : ArithOp) (left right : Expr)
  | compare (op : CompareOp) (left right : Expr)
  | and (left right : Expr)
  | or (left right : Expr)
  | not (operand : Expr)
  | join (left right : Expr)
  | letterOf (index text : Expr)
  | lengthOf (text : Expr)
  | contains (text needle : Expr)
  | round (value : Expr)
  | math (function : MathFunction) (value : Expr)
  | random (low high : Expr)
  | sense (query : Query)
  | keyPressed (key : Expr)
  | touching (target : Expr)
  | distanceTo (target : Expr)
  deriving DecidableEq, Repr

namespace Expr

/-- Is it the literal that names the mouse? -/
def namesMouse : Expr → Bool
  | .literal value => value.toText == mouseTarget
  | _ => false

/-- Does the expression ask for the mouse by its form? -/
def readsMouse : Expr → Bool
  | .literal _ | .var _ => false
  | .sense query => query.readsMouse
  | .touching target | .distanceTo target => target.namesMouse || target.readsMouse
  | .not a | .lengthOf a | .round a | .math _ a | .keyPressed a => a.readsMouse
  | .arith _ a b | .compare _ a b | .and a b | .or a b | .join a b | .letterOf a b | .contains a b
  | .random a b => a.readsMouse || b.readsMouse

end Expr

end SpriteStage
