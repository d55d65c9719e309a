import SpriteStage.Block.Tree

/-!
Building block trees by hand: each new block gets a fresh id, and links are made by ids. A link from
a block that does not exist changes nothing.
-/

namespace SpriteStage

/-- A tree under construction, and how many ids have been given out. -/
structure TreeBuilder where
  tree : BlockTree
  count : Nat

namespace TreeBuilder

def empty : TreeBuilder :=
  ⟨.empty, 0⟩

def modify (t : TreeBuilder) (id : String) (f : Block → Block) : TreeBuilder :=
  match t.tree.get? id with
  | some b => { t with tree := ⟨t.tree.blocks.insert id (f b)⟩ }
  | none => t

/-- Adds a block and gives its id. -/
def block (t : TreeBuilder) (opcode : String) : String × TreeBuilder :=
  let count := t.count + 1
  let id := "b" ++ toString count
  (id, ⟨t.tree.insert (.ofOpcode id opcode), count⟩)

/-- Adds a hat block, below those that are there. -/
def hat (t : TreeBuilder) (opcode : String) : String × TreeBuilder :=
  let (id, t) := t.block opcode
  (id, t.modify id fun b => { b with topLevel := true, y := Float.ofNat t.count })

def field (t : TreeBuilder) (id name : String) (value : Value) : TreeBuilder :=
  t.modify id fun b => { b with fields := b.fields.insert name value }

def number (t : TreeBuilder) (x : Float) : String × TreeBuilder :=
  let (id, t) := t.block "math_number"
  (id, t.field id "NUM" (.number x))

def text (t : TreeBuilder) (s : String) : String × TreeBuilder :=
  let (id, t) := t.block "text"
  (id, t.field id "TEXT" (.text s))

def input (t : TreeBuilder) (id slot child : String) : TreeBuilder :=
  t.modify id fun b => { b with valueSlots := b.valueSlots.insert slot (some child) }

def substack (t : TreeBuilder) (id slot child : String) : TreeBuilder :=
  t.modify id fun b => { b with statementSlots := b.statementSlots.insert slot (some child) }

def next (t : TreeBuilder) (id below : String) : TreeBuilder :=
  t.modify id fun b => { b with next := some below }

def chain (t : TreeBuilder) : List String → TreeBuilder
  | first :: second :: rest => (t.next first second).chain (second :: rest)
  | _ => t

end TreeBuilder

end SpriteStage
