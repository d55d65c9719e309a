import SpriteStage.Block.Tree
import SpriteStage.Json.Printer

/-!
Blocks of a project file.

A project file keeps the blocks of an entity in one object by their ids. An input is the id of a
block, or a list of a mode, an entry and a fallback entry. An entry may be a literal in short form,
such as `[4, "10"]`; it becomes a block of its own whose id is made of its parent's id and the slot.
-/

namespace SpriteStage.Project

def int64? : Json → Option Int
  | .int n => if n < 9223372036854775808 then some n else none
  | _ => none

/-- The literal of a field: the value itself or the first item of a list. -/
def fieldLiteral (j : Json) : Option Value :=
  match j with
  | .arr (first :: _) => Value.ofJson? first
  | .arr [] => none
  | other => Value.ofJson? other

def literalText : Json → String
  | .str s => s
  | .int n => toString n
  | .float x => Json.writeFloat x
  | _ => ""

/-- The opcode, the field and the value of a literal in short form, by its code. -/
def literalOf? (code : Int) (text : String) : Option (String × String × Value) :=
  if 4 ≤ code ∧ code ≤ 8 then
    some ("math_number", "NUM", ((Number.readNumber text).map .number).getD (.text text))
  else if code = 9 ∨ code = 10 then some ("text", "TEXT", .text text)
  else if code = 11 then some ("event_broadcast_menu", "BROADCAST_OPTION", .text text)
  else if code = 12 then some ("data_variable", "VARIABLE", .text text)
  else none

def literalBlock? (id : String) : List Json → Option Block
  | code :: raw :: _ => do
    let (opcode, field, value) ← literalOf? (← int64? code) (literalText raw)
    return { Block.ofOpcode id opcode with fields := Dict.empty.insert field value }
  | _ => none

/-- The block that an entry of an input leads to; a literal is put into the tree. -/
def entry (tree : BlockTree) (id : String) : Option Json → Option String × BlockTree
  | some (.str target) => (some target, tree)
  | some (.arr literal) =>
    match literalBlock? id literal with
    | some b => (some id, tree.insert b)
    | none => (none, tree)
  | _ => (none, tree)

/-- The block that an input leads to. In mode 3 the third item is the fallback of the second. -/
def inputTarget (tree : BlockTree) (parent slot : String) (j : Json) : Option String × BlockTree :=
  match j with
  | .str target => (some target, tree)
  | .arr items =>
    let id := parent ++ ":" ++ slot
    let mode := (items[0]?.bind int64?).getD 1
    match entry tree id items[1]? with
    | (some target, tree) => (some target, tree)
    | (none, tree) => if mode = 3 then entry tree (id ++ ":shadow") items[2]? else (none, tree)
  | _ => (none, tree)

def addInput (state : Block × BlockTree) (name : String) (j : Json) : Block × BlockTree :=
  let (b, tree) := state
  let (target, tree) := inputTarget tree b.id name j
  if "SUBSTACK".toList.isPrefixOf name.toList then
    ({ b with statementSlots := b.statementSlots.insert name target }, tree)
  else ({ b with valueSlots := b.valueSlots.insert name target }, tree)

/-- A block without its inputs. -/
def plainBlock (id : String) (j : Json) : Block :=
  let fields := ((j.field? "fields").bind Json.obj?).getD []
  { Block.ofOpcode id (((j.field? "opcode").bind Json.str?).getD "") with
    topLevel := ((j.field? "topLevel").bind Json.bool?).getD false
    x := ((j.field? "x").bind Json.float?).getD 0
    y := ((j.field? "y").bind Json.float?).getD 0
    next := (j.field? "next").bind Json.str?
    fields := .ofList (fields.filterMap fun (name, value) =>
      (fieldLiteral value).map fun literal => (name, literal)) }

/-- Puts a block of the file into the tree, after the literals of its inputs. -/
def addBlock (tree : BlockTree) (id : String) (j : Json) : BlockTree :=
  match j with
  | .obj _ =>
    let inputs := ((j.field? "inputs").bind Json.obj?).getD []
    let (b, tree) := inputs.foldl (fun state (name, input) => addInput state name input)
      (plainBlock id j, tree)
    tree.insert b
  | _ => tree

def blockTree (blocks : List (String × Json)) : BlockTree :=
  blocks.foldl (fun tree (id, j) => addBlock tree id j) .empty

end SpriteStage.Project
