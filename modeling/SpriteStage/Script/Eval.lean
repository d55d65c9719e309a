import SpriteStage.Script.Expr
import SpriteStage.World.Sensing

/-!
The value of an expression. Evaluation reads the world, moves only the random source on, and fails
only for an entity that does not exist.
-/

namespace SpriteStage

/-- The result of an arithmetic operation; a remainder takes the sign of the divisor. -/
def ArithOp.apply (op : ArithOp) (a b : Float) : Float :=
  match op with
  | .add => a + b
  | .sub => a - b
  | .mul => a * b
  | .div => a / b
  | .mod =>
    let r := Number.remainder a b
    if r != 0 && decide (r < 0) != decide (b < 0) then r + b else r

/-- The value of a function of one number; angles are in degrees. -/
def MathFunction.apply (f : MathFunction) (x : Float) : Float :=
  match f with
  | .abs => x.abs
  | .floor => x.floor
  | .ceiling => x.ceil
  | .sqrt => x.sqrt
  | .sin => Stage.sine x
  | .cos => Stage.cosine x
  | .tan => Stage.tangent x
  | .asin => Stage.toDegrees x.asin
  | .acos => Stage.toDegrees x.acos
  | .atan => Stage.toDegrees x.atan
  | .ln => x.log
  | .log => x.log10
  | .exp => x.exp
  | .pow10 => Float.pow 10 x

def CompareOp.holds (op : CompareOp) (a b : Value) : Bool :=
  match op with
  | .lt => a.compare b == .lt
  | .gt => a.compare b == .gt
  | .eq => a.looselyEquals b

/-- The letter at a place that counts from one; there is none elsewhere. -/
def letterAt (index : Float) (text : String) : String :=
  if 1 ≤ index && Number.isWhole index then
    ((text.toList[index.toUInt64.toNat - 1]?).map String.singleton).getD ""
  else ""

namespace Expr

/-- The value of the expression for an entity. -/
def eval (w : World) (id : EntityId) : Expr → Eval Value
  | .literal value => return value
  | .var name => return w.variableValue id name
  | .arith op left right => do
    let a ← eval w id left
    let b ← eval w id right
    return .number (op.apply a.toNumber b.toNumber)
  | .compare op left right => do
    let a ← eval w id left
    let b ← eval w id right
    return .bool (op.holds a b)
  | .and left right => do
    let a ← eval w id left
    if a.toBool then return .bool (← eval w id right).toBool else return .bool false
  | .or left right => do
    let a ← eval w id left
    if a.toBool then return .bool true else return .bool (← eval w id right).toBool
  | .not operand => do
    let a ← eval w id operand
    return .bool !a.toBool
  | .join left right => do
    let a ← eval w id left
    let b ← eval w id right
    return .text (a.toText ++ b.toText)
  | .letterOf index text => do
    let i ← eval w id index
    let s ← eval w id text
    return .text (letterAt i.toNumber s.toText)
  | .lengthOf text => do
    let s ← eval w id text
    return .number (Float.ofNat s.toText.length)
  | .contains text needle => do
    let s ← eval w id text
    let t ← eval w id needle
    return .bool (Text.hasPart (Text.lower s.toText).toList (Text.lower t.toText).toList)
  | .round value => do
    let a ← eval w id value
    return .number (a.toNumber + 0.5).floor
  | .math function value => do
    let a ← eval w id value
    return .number (function.apply a.toNumber)
  | .random low high => do
    let a ← eval w id low
    let b ← eval w id high
    return .number (← Eval.draw (a.drawBetween b))
  | .sense query => Eval.ofExcept (w.query id query)
  | .keyPressed key => do
    let k ← eval w id key
    return .bool (w.keyPressed k.toText)
  | .touching target => do
    let t ← eval w id target
    return .bool (← Eval.ofExcept (w.touching id t.toText))
  | .distanceTo target => do
    let t ← eval w id target
    return .number (← Eval.ofExcept (w.distanceTo id t.toText))

end Expr

/-- The value of a numeric argument, which has to be a number or blank. -/
def Value.asArgument (v : Value) (argument : String) : Except ScriptError Float :=
  match v.strictNumber? with
  | some x => .ok x
  | none => .error (.invalidNumber argument v.toText)

def Expr.evalNumber (w : World) (id : EntityId) (argument : String) (e : Expr) : Eval Float := do
  let v ← e.eval w id
  Eval.ofExcept (v.asArgument argument)

end SpriteStage
