import SpriteStage.Dict
import SpriteStage.Number.Reader

/-!
JSON values.

Whole numbers of 64 bits and doubles are kept apart, since a whole number is asked for in some
places. The fields of an object stand in the order in which they are written; a value that was read
has them in ascending order, each name once.
-/

namespace SpriteStage

inductive Json where
  | null
  | bool (b : Bool)
  | int (n : Int)
  | float (x : Float)
  | str (s : String)
  | arr (items : List Json)
  | obj (fields : List (String × Json))
  deriving Inhabited

namespace Json

def field? (name : String) : Json → Option Json
  | .obj fields => Dict.lookupIn name fields
  | _ => none

def str? : Json → Option String
  | .str s => some s
  | _ => none

def bool? : Json → Option Bool
  | .bool b => some b
  | _ => none

/-- Any number as a double. -/
def float? : Json → Option Float
  | .int n => some (Float.ofInt n)
  | .float x => some x
  | _ => none

/-- A whole number that is not negative. -/
def nat? : Json → Option Nat
  | .int (.ofNat n) => some n
  | _ => none

def arr? : Json → Option (List Json)
  | .arr items => some items
  | _ => none

def obj? : Json → Option (List (String × Json))
  | .obj fields => some fields
  | _ => none

def isNull : Json → Bool
  | .null => true
  | _ => false

mutual
/-- How deeply arrays and objects are nested, a plain value counting one. -/
def depth : Json → Nat
  | .arr items => depthOfItems items + 1
  | .obj fields => depthOfFields fields + 1
  | _ => 1

def depthOfItems : List Json → Nat
  | [] => 0
  | item :: rest => max item.depth (depthOfItems rest)

def depthOfFields : List (String × Json) → Nat
  | [] => 0
  | (_, value) :: rest => max value.depth (depthOfFields rest)
end

def list {α : Type} (encode : α → Json) (items : List α) : Json :=
  .arr (items.map encode)

def option {α : Type} (encode : α → Json) : Option α → Json
  | none => .null
  | some a => encode a

/-- A dictionary, its keys as field names. -/
def dict {α : Type} (encode : α → Json) (d : Dict α) : Json :=
  .obj (d.entries.map fun p => (p.1, encode p.2))

def nat (n : Nat) : Json :=
  .int n

/-- A double; JSON has no numbers that are not finite, so these become null. -/
def num (x : Float) : Json :=
  if x.isFinite then .float x else .null

def pair (p : Float × Float) : Json :=
  .arr [num p.1, num p.2]

end Json

end SpriteStage
