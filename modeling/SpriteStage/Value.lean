import SpriteStage.Json.Basic
import SpriteStage.Number.Reader
import SpriteStage.Text.Lower

/-!
Values of scripts: numbers, truth values and texts.

Every value can be used as any kind. Operators take `toNumber`, which reads what is no number as
zero; arguments of actions take `strictNumber?`, which refuses it. Comparison is numeric if both
sides look like numbers and by small letters otherwise.
-/

namespace SpriteStage

/-- A value that a variable, a reporter or a block's field carries. -/
inductive Value where
  | number (x : Float)
  | bool (b : Bool)
  | text (s : String)
  deriving DecidableEq, Repr

namespace Value

instance : Inhabited Value := ⟨.number 0⟩

def ofBool (b : Bool) : Float :=
  if b then 1 else 0

/-- The value as a number; what is no number counts as zero. -/
def toNumber : Value → Float
  | .number x => if x.isNaN then 0 else x
  | .bool b => ofBool b
  | .text s => (Number.readNumber s).getD 0

/-- The value as a number, unless it is a text that is neither empty nor a number. -/
def strictNumber? : Value → Option Float
  | .number x => some (if x.isNaN then 0 else x)
  | .bool b => some (ofBool b)
  | .text s => if Text.isBlankText s then some 0 else Number.readNumber s

def toBool : Value → Bool
  | .bool b => b
  | .number x => x != 0 && !x.isNaN
  | .text s =>
    let small := Text.lower s
    !(s.isEmpty || small == "0" || small == "false")

def toText : Value → String
  | .number x => Number.rounded x
  | .bool b => if b then "true" else "false"
  | .text s => s

/-- The number that the value looks like in a comparison. -/
def numericView : Value → Option Float
  | .number x => some x
  | .bool _ => none
  | .text s => if Text.isBlankText s then none else Number.readNumber s

/-- The order of two doubles; one that is no number counts as equal to every other. -/
def compareNumbers (x y : Float) : Ordering :=
  if x < y then .lt else if y < x then .gt else .eq

/-- The order of two texts without regard to case. -/
def compareTexts (s t : String) : Ordering :=
  Ord.compare (Text.lower s) (Text.lower t)

def compare (a b : Value) : Ordering :=
  match a.numericView, b.numericView with
  | some x, some y => compareNumbers x y
  | _, _ => compareTexts a.toText b.toText

/-- Equality as scripts see it. -/
def looselyEquals (a b : Value) : Bool :=
  a.compare b == .eq

/-! ### JSON form -/

def toJson : Value → Json
  | .number x => .num x
  | .bool b => .bool b
  | .text s => .str s

def ofJson? : Json → Option Value
  | .int n => some (.number (Float.ofInt n))
  | .float x => some (.number x)
  | .bool b => some (.bool b)
  | .str s => some (.text s)
  | _ => none

/-- Is the value finite, if it is a number? -/
def isFinite : Value → Bool
  | .number x => x.isFinite
  | _ => true

theorem ofJson?_toJson {v : Value} (h : v.isFinite = true) : ofJson? v.toJson = some v := by
  cases v with
  | number x => simp_all [toJson, Json.num, isFinite, ofJson?]
  | bool b => rfl
  | text s => rfl

end Value

end SpriteStage
