import SpriteStage.Block.Kind
import SpriteStage.Json.Record

/-!
Blocks and block trees.

The blocks of an entity are kept by their ids, and links between blocks are ids. Nothing keeps links
from leading nowhere or in circles, so whoever follows them has to guard against both.
-/

namespace SpriteStage

structure Block where
  id : String
  opcode : String
  kind : BlockKind
  fields : Dict Value
  /-- Slots that hold reporters. -/
  valueSlots : Dict (Option String)
  /-- Slots that hold the first block of a nested chain. -/
  statementSlots : Dict (Option String)
  next : Option String
  topLevel : Bool
  x : Float
  y : Float
  deriving DecidableEq

namespace Block

/-- A block without fields and links. -/
def ofOpcode (id opcode : String) : Block where
  id := id
  opcode := opcode
  kind := .ofOpcode opcode
  fields := .empty
  valueSlots := .empty
  statementSlots := .empty
  next := none
  topLevel := false
  x := 0
  y := 0

def fieldText? (b : Block) (name : String) : Option String :=
  (b.fields.get? name).map Value.toText

def valueSlot? (b : Block) (name : String) : Option String :=
  (b.valueSlots.get? name).join

def statementSlot? (b : Block) (name : String) : Option String :=
  (b.statementSlots.get? name).join

/-- Where a hat stands on the canvas: by row, then by column, then by id. -/
def precedes (a b : Block) : Bool :=
  let ya := Number.orderKey a.y
  let yb := Number.orderKey b.y
  let xa := Number.orderKey a.x
  let xb := Number.orderKey b.x
  ya < yb || (ya == yb && (xa < xb || (xa == xb && a.id ≤ b.id)))

/-! ### JSON form -/

def toJson (b : Block) : Json :=
  .obj [
    ("id", .str b.id),
    ("opcode", .str b.opcode),
    ("kind", .str b.kind.name),
    ("fields", .dict Value.toJson b.fields),
    ("value_slots", .dict (.option .str) b.valueSlots),
    ("statement_slots", .dict (.option .str) b.statementSlots),
    ("next", .option .str b.next),
    ("top_level", .bool b.topLevel),
    ("x", .num b.x),
    ("y", .num b.y)]

def ofJson? (j : Json) : Option Block := do
  let fields ← j.fields? ["id", "opcode", "kind", "fields", "value_slots", "statement_slots",
    "next", "top_level", "x", "y"]
  let id ← fields.get "id" Json.str?
  let opcode ← fields.get "opcode" Json.str?
  let kind ← fields.get "kind" (Json.choice? .alone BlockKind.ofName?)
  let literals ← fields.getD "fields" (Json.dict? Value.ofJson?) .empty
  let valueSlots ← fields.getD "value_slots" (Json.dict? (Json.option? Json.str?)) .empty
  let statementSlots ← fields.getD "statement_slots" (Json.dict? (Json.option? Json.str?)) .empty
  let next ← fields.getOptionD "next" Json.str?
  let topLevel ← fields.getD "top_level" Json.bool? false
  let x ← fields.getD "x" Json.float? 0
  let y ← fields.getD "y" Json.float? 0
  return { id, opcode, kind, fields := literals, valueSlots, statementSlots, next, topLevel, x, y }

end Block

/-- The blocks of an entity by their ids. -/
structure BlockTree where
  blocks : Dict Block
  deriving DecidableEq

namespace BlockTree

def empty : BlockTree :=
  ⟨.empty⟩

instance : Inhabited BlockTree := ⟨empty⟩

def get? (t : BlockTree) (id : String) : Option Block :=
  t.blocks.get? id

def insert (t : BlockTree) (b : Block) : BlockTree :=
  ⟨t.blocks.insert b.id b⟩

/-- The hat blocks of a list of blocks, in the order of the canvas. -/
def hatsOf (blocks : List Block) : List Block :=
  (blocks.filter fun b => b.topLevel && b.kind.isHat).mergeSort Block.precedes

def hats (t : BlockTree) : List Block :=
  hatsOf t.blocks.values

def toJson (t : BlockTree) : Json :=
  .obj [("blocks", .dict Block.toJson t.blocks)]

def ofJson? (j : Json) : Option BlockTree := do
  let fields ← j.fields? ["blocks"]
  let blocks ← fields.get "blocks" (Json.dict? Block.ofJson?)
  return ⟨blocks⟩

end BlockTree

end SpriteStage
