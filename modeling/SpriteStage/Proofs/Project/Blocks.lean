import SpriteStage.Project.Blocks
import SpriteStage.Proofs.Json.Ordered

/-!
The tree of a file's blocks.

Reading the blocks puts one block after the other into the tree (`blockTree_eq`): for every object
of the file the literals of its inputs, and then the block itself. The id of a literal is longer
than that of its parent and so behind it in the order in which the blocks are read. So a block of
the file always stays in the tree, and a literal stays if no block of the file and no later literal
has its id (`get?_blockTree`).
-/

namespace SpriteStage

/-! ### Blocks put in one after the other -/

namespace BlockTree

theorem get?_insert (t : BlockTree) (b : Block) (id : String) :
    (t.insert b).get? id = if b.id = id then some b else t.get? id :=
  Dict.get?_insert t.blocks b.id id b

/-- The last block with an id counts. -/
theorem get?_foldl_insert (blocks : List Block) (t : BlockTree) (id : String) :
    (blocks.foldl insert t).get? id = (blocks.filter (·.id = id)).getLast?.or (t.get? id) := by
  induction blocks generalizing t with
  | nil => rfl
  | cons b rest ih =>
    rw [List.foldl_cons, ih, get?_insert, List.filter_cons]
    by_cases hb : b.id = id
    · cases hrest : rest.filter (·.id = id) <;> simp [hb, List.getLast?_cons]
    · simp [hb]

end BlockTree

namespace Project

/-! ### Inputs -/

/-- Does an entry of an input lead to a block? It does if it is an id, or a literal with a known
code and a value. -/
def leads : Json → Bool
  | .str _ => true
  | .arr (code :: _ :: _) => (int64? code).any fun n => 4 ≤ n ∧ n ≤ 12
  | _ => false

/-- The entry of an input that counts, with the id it gives to a literal: the first entry if it
leads to a block, and otherwise, in mode 3, the second if that one does. -/
def selected? (parent slot : String) : Json → Option (String × Json)
  | .arr items =>
    ((items[1]?.filter leads).map (parent ++ ":" ++ slot, ·)).or
      (if items[0]?.bind int64? = some 3 then
        (items[2]?.filter leads).map (parent ++ ":" ++ slot ++ ":shadow", ·)
      else none)
  | _ => none

/-- The block that an input leads to. -/
def target? (parent slot : String) : Json → Option String
  | .str id => some id
  | input => (selected? parent slot input).map fun p => p.2.str?.getD p.1

def expanded? (parent slot : String) (input : Json) : Option Block :=
  (selected? parent slot input).bind fun p => p.2.arr?.bind (literalBlock? p.1)

theorem isSome_literalOf? (code : Int) (text : String) :
    (literalOf? code text).isSome = decide (4 ≤ code ∧ code ≤ 12) := by
  unfold literalOf?
  repeat' split
  all_goals
    simp
    omega

theorem isSome_literalBlock? (id : String) (literal : List Json) :
    (literalBlock? id literal).isSome = leads (.arr literal) := by
  unfold literalBlock? leads
  split
  next code raw _ =>
    cases hcode : int64? code with
    | none => simp [hcode]
    | some n =>
      have hsome := isSome_literalOf? n (literalText raw)
      cases hliteral : literalOf? n (literalText raw) <;> simp_all
  next hshort =>
    split
    · simp_all
    · simp_all
    · simp_all

theorem id_of_literalBlock? {id : String} {literal : List Json} {b : Block}
    (h : literalBlock? id literal = some b) : b.id = id := by
  unfold literalBlock? at h
  split at h
  · simp only [bind, Option.bind_eq_some_iff] at h
    obtain ⟨n, -, parts, -, heq⟩ := h
    cases heq
    rfl
  · cases h

theorem entry_eq (tree : BlockTree) (id : String) (e : Option Json) :
    entry tree id e = ((e.filter leads).map fun j => j.str?.getD id,
      (((e.filter leads).bind Json.arr?).bind (literalBlock? id)).elim tree tree.insert) := by
  unfold entry
  split
  · rfl
  next literal =>
    have hsome := isSome_literalBlock? id literal
    cases hliteral : literalBlock? id literal <;>
      simp_all [Option.filter, Json.str?, Json.arr?]
  next hstr harr =>
    cases e with
    | none => rfl
    | some j =>
      cases j with
      | str target => exact (hstr target rfl).elim
      | arr literal => exact (harr literal rfl).elim
      | _ => rfl

theorem inputTarget_eq (tree : BlockTree) (parent slot : String) (input : Json) :
    inputTarget tree parent slot input =
      (target? parent slot input, (expanded? parent slot input).elim tree tree.insert) := by
  unfold inputTarget
  split
  · rfl
  next items =>
    have hmode : (items[0]?.bind int64?).getD 1 = 3 ↔ items[0]?.bind int64? = some 3 := by
      cases items[0]?.bind int64? <;> simp
    simp only [entry_eq, target?, expanded?, selected?, hmode]
    cases items[1]?.filter leads with
    | some first => rfl
    | none =>
      by_cases hthree : items[0]?.bind int64? = some 3
      · simp only [hthree, if_true]
        cases items[2]?.filter leads <;> rfl
      · simp only [hthree, if_false]
        rfl
  next hstr harr =>
    cases input with
    | str target => exact (hstr target rfl).elim
    | arr items => exact (harr items rfl).elim
    | _ => rfl

/-! ### Blocks -/

def inputs (j : Json) : List (String × Json) :=
  ((j.field? "inputs").bind Json.obj?).getD []

def isNested (slot : String) : Bool :=
  "SUBSTACK".toList.isPrefixOf slot.toList

def plug (b : Block) (slot : String) (target : Option String) : Block :=
  if isNested slot then { b with statementSlots := b.statementSlots.insert slot target }
  else { b with valueSlots := b.valueSlots.insert slot target }

/-- The block that an object of the file becomes. -/
def fileBlock (id : String) (j : Json) : Block :=
  (inputs j).foldl (fun b p => plug b p.1 (target? id p.1 p.2)) (plainBlock id j)

def literals (id : String) (j : Json) : List Block :=
  (inputs j).filterMap fun p => expanded? id p.1 p.2

/-- What an entry of the file puts into the tree, in this order. -/
def written (id : String) (j : Json) : List Block :=
  literals id j ++ (j.obj?.map fun _ => fileBlock id j).toList

/-- Inputs change slots and nothing else. -/
theorem fileBlock_eq (id : String) (j : Json) :
    fileBlock id j = { plainBlock id j with
      valueSlots := (fileBlock id j).valueSlots
      statementSlots := (fileBlock id j).statementSlots } := by
  unfold fileBlock
  generalize plainBlock id j = b
  induction inputs j generalizing b with
  | nil => rfl
  | cons p rest ih =>
    rw [List.foldl_cons, ih, plug]
    split <;> rfl

theorem id_plug (b : Block) (slot : String) (target : Option String) :
    (plug b slot target).id = b.id := by
  unfold plug
  split <;> rfl

theorem addInput_eq (b : Block) (tree : BlockTree) (slot : String) (input : Json) :
    addInput (b, tree) slot input = (plug b slot (target? b.id slot input),
      (expanded? b.id slot input).elim tree tree.insert) := by
  simp only [addInput, inputTarget_eq, plug, isNested]
  by_cases hnested : "SUBSTACK".toList.isPrefixOf slot.toList = true <;> simp only [hnested] <;> rfl

theorem foldl_addInput (l : List (String × Json)) (b : Block) (tree : BlockTree) :
    l.foldl (fun state (name, input) => addInput state name input) (b, tree) =
      (l.foldl (fun c p => plug c p.1 (target? b.id p.1 p.2)) b,
        (l.filterMap fun p => expanded? b.id p.1 p.2).foldl BlockTree.insert tree) := by
  induction l generalizing b tree with
  | nil => rfl
  | cons p rest ih =>
    obtain ⟨slot, input⟩ := p
    simp only [List.foldl_cons, addInput_eq, ih, id_plug]
    cases hexpanded : expanded? b.id slot input <;> simp [hexpanded]

theorem addBlock_eq (tree : BlockTree) (id : String) (j : Json) :
    addBlock tree id j = (written id j).foldl BlockTree.insert tree := by
  cases j with
  | obj fields =>
    simp only [addBlock, foldl_addInput, written, List.foldl_append]
    rfl
  | _ => rfl

theorem blockTree_eq (blocks : List (String × Json)) :
    blockTree blocks =
      (blocks.flatMap fun p => written p.1 p.2).foldl BlockTree.insert .empty := by
  simp only [blockTree, addBlock_eq, List.foldl_flatMap]

/-! ### Ids -/

theorem lt_literalId (parent rest : String) : parent < parent ++ ":" ++ rest := by
  have hnil : [] < ":".toList ++ rest.toList := List.nil_lt_cons ..
  have hlt := @List.append_left_lt _ _ parent.toList _ _ hnil
  rw [String.lt_iff, String.toList_append, String.toList_append, List.append_assoc]
  rwa [List.append_nil] at hlt

theorem id_of_selected? {parent slot : String} {input : Json} {p : String × Json}
    (h : selected? parent slot input = some p) : parent < p.1 := by
  unfold selected? at h
  split at h
  · rcases Option.or_eq_some_iff.1 h with hfirst | ⟨-, hsecond⟩
    · obtain ⟨entry, -, rfl⟩ := Option.map_eq_some_iff.1 hfirst
      exact lt_literalId parent slot
    · split at hsecond
      · obtain ⟨entry, -, rfl⟩ := Option.map_eq_some_iff.1 hsecond
        rw [@String.append_assoc (parent ++ ":")]
        exact lt_literalId parent (slot ++ ":shadow")
      · cases hsecond
  · cases h

theorem id_of_expanded? {parent slot : String} {input : Json} {b : Block}
    (h : expanded? parent slot input = some b) : ∃ p, selected? parent slot input = some p ∧
      b.id = p.1 := by
  obtain ⟨p, hselected, hp⟩ := Option.bind_eq_some_iff.1 h
  obtain ⟨literal, -, hliteral⟩ := Option.bind_eq_some_iff.1 hp
  exact ⟨p, hselected, id_of_literalBlock? hliteral⟩

theorem lt_id_of_mem_literals {parent : String} {j : Json} {b : Block} (h : b ∈ literals parent j) :
    parent < b.id := by
  obtain ⟨p, -, hexpanded⟩ := List.mem_filterMap.1 h
  obtain ⟨e, hselected, hid⟩ := id_of_expanded? hexpanded
  exact hid ▸ id_of_selected? hselected

theorem id_fileBlock (id : String) (j : Json) : (fileBlock id j).id = id :=
  congrArg Block.id (fileBlock_eq id j)

/-! ### The tree -/

/-- The block of the file with an id, if there is one. -/
def fileBlock? (blocks : List (String × Json)) (id : String) : Option Block :=
  (Dict.lookupIn id blocks).bind fun j => j.obj?.map fun _ => fileBlock id j

/-- All literals of the file, in the order in which they are read. -/
def allLiterals (blocks : List (String × Json)) : List Block :=
  blocks.flatMap fun p => literals p.1 p.2

theorem filter_literals_eq_nil {key id : String} (h : ¬ key < id) (j : Json) :
    (literals key j).filter (·.id = id) = [] := by
  refine List.filter_eq_nil_iff.2 fun b hb hid => h ?_
  have hlt := lt_id_of_mem_literals hb
  rwa [of_decide_eq_true hid] at hlt

theorem filter_written (key id : String) (j : Json) :
    (written key j).filter (·.id = id) =
      if key = id then (j.obj?.map fun _ => fileBlock key j).toList
      else (literals key j).filter (·.id = id) := by
  rw [written, List.filter_append]
  split
  next hkey =>
    rw [filter_literals_eq_nil (hkey ▸ String.lt_irrefl key), List.nil_append]
    refine List.filter_eq_self.2 fun b hb => ?_
    obtain ⟨_, -, rfl⟩ := Option.map_eq_some_iff.1 (Option.mem_toList.1 hb)
    rw [id_fileBlock, decide_eq_true hkey]
  next hkey =>
    refine (congrArg _ (List.filter_eq_nil_iff.2 fun b hb => ?_)).trans (List.append_nil _)
    obtain ⟨_, -, rfl⟩ := Option.map_eq_some_iff.1 (Option.mem_toList.1 hb)
    rw [id_fileBlock, decide_eq_false hkey]
    exact Bool.false_ne_true

theorem get?_blockTree {blocks : List (String × Json)}
    (h : blocks.Pairwise fun a b => a.1 < b.1) (id : String) :
    (blockTree blocks).get? id =
      (fileBlock? blocks id).or ((allLiterals blocks).filter (·.id = id)).getLast? := by
  rw [blockTree_eq, BlockTree.get?_foldl_insert]
  refine Option.or_none.trans ?_
  induction blocks with
  | nil => rfl
  | cons p rest ih =>
    obtain ⟨key, j⟩ := p
    obtain ⟨hfirst, hrest⟩ := List.pairwise_cons.1 h
    simp only [allLiterals, fileBlock?, Dict.lookupIn, List.flatMap_cons, List.filter_append,
      List.getLast?_append, filter_written]
    split
    next hkey =>
      -- Nothing behind the entry has its id, and its own literals have longer ones.
      subst hkey
      have hbehind : ∀ p ∈ rest, (literals p.1 p.2).filter (·.id = key) = [] := fun p hp =>
        filter_literals_eq_nil (String.lt_asymm (hfirst p hp)) p.2
      have hliterals : (rest.flatMap fun p => literals p.1 p.2).filter (·.id = key) = [] := by
        rw [List.filter_flatMap, List.flatMap_eq_nil_iff]
        exact hbehind
      have hwritten : (rest.flatMap fun p => written p.1 p.2).filter (·.id = key) = [] := by
        rw [List.filter_flatMap, List.flatMap_eq_nil_iff]
        intro p hp
        have hne : p.1 ≠ key := fun heq => String.lt_irrefl key (heq ▸ hfirst p hp)
        rw [filter_written, if_neg hne, hbehind p hp]
      rw [hwritten, hliterals, filter_literals_eq_nil (String.lt_irrefl key)]
      cases hobj : j.obj? <;> simp [hobj]
    next hkey =>
      rw [ih hrest, Option.or_assoc]
      rfl

/-! ### The blocks of the file -/

/-- The block has the key for its id, and all else as the object says. -/
structure ReadFrom (key : String) (j : Json) (b : Block) : Prop where
  id : b.id = key
  opcode : b.opcode = ((j.field? "opcode").bind Json.str?).getD ""
  kind : b.kind = .ofOpcode b.opcode
  topLevel : b.topLevel = ((j.field? "topLevel").bind Json.bool?).getD false
  x : b.x = ((j.field? "x").bind Json.float?).getD 0
  y : b.y = ((j.field? "y").bind Json.float?).getD 0
  next : b.next = (j.field? "next").bind Json.str?
  fields : ∀ name, b.fields.get? name =
    ((j.field? "fields").bind (Json.field? name)).bind fieldLiteral
  valueSlots : ∀ slot, b.valueSlots.get? slot =
    if isNested slot then none
    else ((j.field? "inputs").bind (Json.field? slot)).map (target? key slot)
  statementSlots : ∀ slot, b.statementSlots.get? slot =
    if isNested slot then ((j.field? "inputs").bind (Json.field? slot)).map (target? key slot)
    else none

/-- What one of a block's dictionaries of slots holds once all inputs are in their slots; `here` are
the slots it is for. -/
theorem get?_foldl_plug {slots : Block → Dict (Option String)} {here : String → Bool}
    (hplug : ∀ b slot target other, (slots (plug b slot target)).get? other =
      if slot = other ∧ here other then some target else (slots b).get? other)
    {l : List (String × Json)} (h : l.Pairwise fun a b => a.1 < b.1) (id : String) (b : Block)
    (slot : String) :
    (slots (l.foldl (fun b p => plug b p.1 (target? id p.1 p.2)) b)).get? slot =
      (if here slot then (Dict.lookupIn slot l).map (target? id slot) else none).or
        ((slots b).get? slot) := by
  induction l generalizing b with
  | nil => simp [Dict.lookupIn]
  | cons p rest ih =>
    obtain ⟨hfirst, hrest⟩ := List.pairwise_cons.1 h
    rw [List.foldl_cons, ih hrest, hplug, Dict.lookupIn]
    by_cases hslot : p.1 = slot
    · have hnone : Dict.lookupIn slot rest = none := Dict.lookupIn_eq_none (hslot ▸ hfirst)
      cases here slot <;> simp [hslot, hnone]
    · simp [hslot]

theorem get?_ofList_filterMap {α β : Type} (f : α → Option β) {l : List (String × α)}
    (h : l.Pairwise fun a b => a.1 < b.1) (name : String) :
    (Dict.ofList (l.filterMap fun p => (f p.2).map fun value => (p.1, value))).get? name =
      (Dict.lookupIn name l).bind f := by
  have hsorted : (l.filterMap fun p => (f p.2).map fun value => (p.1, value)).Pairwise
      fun a b => a.1 < b.1 := by
    refine h.filterMap _ fun a a' hlt b hb b' hb' => ?_
    obtain ⟨_, -, rfl⟩ := Option.map_eq_some_iff.1 hb
    obtain ⟨_, -, rfl⟩ := Option.map_eq_some_iff.1 hb'
    exact hlt
  rw [Dict.ofList, Dict.get?_foldl_insert hsorted, Dict.get?_empty, Option.or_none]
  clear hsorted
  induction l with
  | nil => rfl
  | cons p rest ih =>
    obtain ⟨hfirst, hrest⟩ := List.pairwise_cons.1 h
    have hih := ih hrest
    by_cases hname : p.1 = name
    · have hnone : Dict.lookupIn name rest = none := Dict.lookupIn_eq_none (hname ▸ hfirst)
      rw [hnone] at hih
      cases hvalue : f p.2 <;> simp_all [Dict.lookupIn]
    · cases hvalue : f p.2 <;> simp_all [Dict.lookupIn]

theorem readFrom_fileBlock {j : Json} (h : j.Ordered) (id : String) :
    ReadFrom id j (fileBlock id j) := by
  have hplain := fileBlock_eq id j
  have hvalue : ∀ b slot target other, (plug b slot target).valueSlots.get? other =
      if slot = other ∧ !isNested other then some target else b.valueSlots.get? other := by
    intro b slot target other
    rw [plug]
    split <;> by_cases hslot : slot = other <;> simp_all [Dict.get?_insert]
  have hstatement : ∀ b slot target other, (plug b slot target).statementSlots.get? other =
      if slot = other ∧ isNested other then some target else b.statementSlots.get? other := by
    intro b slot target other
    rw [plug]
    split <;> by_cases hslot : slot = other <;> simp_all [Dict.get?_insert]
  have hinputs := h.sorted_members "inputs"
  refine ⟨id_fileBlock id j, congrArg Block.opcode hplain, ?_, congrArg Block.topLevel hplain,
    congrArg Block.x hplain, congrArg Block.y hplain, congrArg Block.next hplain, fun name => ?_,
    fun slot => ?_, fun slot => ?_⟩
  · rw [hplain]
    rfl
  · rw [hplain, ← Json.lookupIn_members]
    exact get?_ofList_filterMap fieldLiteral (h.sorted_members "fields") name
  · rw [← Json.lookupIn_members]
    refine (get?_foldl_plug hvalue hinputs id (plainBlock id j) slot).trans ?_
    cases isNested slot <;> exact Option.or_none
  · rw [← Json.lookupIn_members]
    refine (get?_foldl_plug hstatement hinputs id (plainBlock id j) slot).trans ?_
    cases isNested slot <;> exact Option.or_none

theorem get?_of_mem {blocks : List (String × Json)} (h : blocks.Pairwise fun a b => a.1 < b.1)
    {id : String} {fields : List (String × Json)} (hmem : (id, Json.obj fields) ∈ blocks) :
    (blockTree blocks).get? id = some (fileBlock id (.obj fields)) := by
  rw [get?_blockTree h, fileBlock?, Dict.lookupIn_of_mem h hmem]
  rfl

theorem fileBlock?_eq_none {blocks : List (String × Json)} {id : String}
    (h : ∀ fields, (id, Json.obj fields) ∉ blocks) : fileBlock? blocks id = none := by
  cases hlookup : Dict.lookupIn id blocks with
  | none => simp [fileBlock?, hlookup]
  | some j =>
    cases j with
    | obj fields => exact (h fields (Dict.mem_of_lookupIn hlookup)).elim
    | _ => simp [fileBlock?, hlookup, Json.obj?]

/-- Does the block stand for the literal of an input of the file? -/
def IsLiteral (blocks : List (String × Json)) (b : Block) : Prop :=
  ∃ parent j slot input, (parent, j) ∈ blocks ∧ (slot, input) ∈ inputs j ∧
    expanded? parent slot input = some b

theorem mem_allLiterals {blocks : List (String × Json)} {b : Block} :
    b ∈ allLiterals blocks ↔ IsLiteral blocks b := by
  simp only [allLiterals, literals, List.mem_flatMap, List.mem_filterMap, IsLiteral, Prod.exists]
  grind

namespace Sample

def greeting : List (String × Json) := [
  ("inputs", .obj [("MESSAGE", .arr [.int 1, .arr [.int 10, .str "hi"]])]),
  ("opcode", .str "looks_say")]

/-- A second block has the id that is made for the literal of the first. -/
def clash : List (String × Json) := [
  ("a", .obj greeting),
  ("a:MESSAGE", .obj [("opcode", .str "sensing_mousex")])]

theorem ordered_greeting : (Json.obj greeting).Ordered := by
  refine .obj (by decide) ?_
  simp only [greeting, List.forall_mem_cons]
  refine ⟨.obj (by decide) ?_, .str _, nofun⟩
  simp only [List.forall_mem_cons]
  refine ⟨.arr ?_, nofun⟩
  simp only [List.forall_mem_cons]
  refine ⟨.int 1, .arr ?_, nofun⟩
  simp only [List.forall_mem_cons]
  exact ⟨.int 10, .str "hi", nofun⟩

theorem ordered_clash : (Json.obj clash).Ordered := by
  refine .obj (by decide) ?_
  simp only [clash, List.forall_mem_cons]
  refine ⟨ordered_greeting, .obj (by decide) ?_, nofun⟩
  simp only [List.forall_mem_cons]
  exact ⟨.str _, nofun⟩

end Sample

structure IsLeaf (b : Block) (opcode : String) (kind : BlockKind) (field : String) (value : Value) :
    Prop where
  opcode : b.opcode = opcode
  kind : b.kind = kind
  fields : b.fields.entries = [(field, value)]
  valueSlots : b.valueSlots.entries = []
  statementSlots : b.statementSlots.entries = []
  next : b.next = none
  topLevel : b.topLevel = false

/-- The block says what a literal of this code with this text says: a number if the text is one, a
text, a message or a variable. -/
structure Carries (b : Block) (code : Int) (text : String) : Prop where
  known : 4 ≤ code ∧ code ≤ 12
  asNumber : code ≤ 8 → IsLeaf b "math_number" .mathNumber "NUM"
    (match Number.readNumber text with
      | some x => .number x
      | none => .text text)
  asText : code = 9 ∨ code = 10 → IsLeaf b "text" .text "TEXT" (.text text)
  asMessage : code = 11 → IsLeaf b "event_broadcast_menu" .menu "BROADCAST_OPTION" (.text text)
  asVariable : code = 12 → IsLeaf b "data_variable" .readVariable "VARIABLE" (.text text)

theorem isLeaf_ofOpcode (id opcode field : String) (value : Value) :
    IsLeaf { Block.ofOpcode id opcode with fields := Dict.empty.insert field value } opcode
      (.ofOpcode opcode) field value :=
  ⟨rfl, rfl, rfl, rfl, rfl, rfl, rfl⟩

theorem carries_of_literalBlock? {id : String} {code raw : Json} {rest : List Json} {b : Block}
    (h : literalBlock? id (code :: raw :: rest) = some b) :
    ∃ n, int64? code = some n ∧ Carries b n (literalText raw) := by
  simp only [literalBlock?, bind, Option.bind_eq_some_iff] at h
  obtain ⟨n, hn, ⟨opcode, field, value⟩, hliteral, heq⟩ := h
  cases heq
  refine ⟨n, hn, ?_⟩
  generalize literalText raw = text at hliteral
  have hleaf := isLeaf_ofOpcode id opcode field value
  unfold literalOf? at hliteral
  split at hliteral
  next hnumber =>
    cases hliteral
    refine ⟨by omega, fun _ => ?_, by omega, by omega, by omega⟩
    cases hread : Number.readNumber text with
    | none =>
      rw [hread] at hleaf
      exact hleaf
    | some x =>
      rw [hread] at hleaf
      exact hleaf
  next hnumber =>
    split at hliteral
    next htext =>
      cases hliteral
      exact ⟨by omega, by omega, fun _ => hleaf, by omega, by omega⟩
    next htext =>
      split at hliteral
      next hmessage =>
        cases hliteral
        exact ⟨by omega, by omega, by omega, fun _ => hleaf, by omega⟩
      next hmessage =>
        split at hliteral
        next hvariable =>
          cases hliteral
          exact ⟨by omega, by omega, by omega, by omega, fun _ => hleaf⟩
        · cases hliteral

theorem leads_of_selected? {parent slot : String} {input : Json} {p : String × Json}
    (h : selected? parent slot input = some p) : leads p.2 = true := by
  unfold selected? at h
  split at h
  · rcases Option.or_eq_some_iff.1 h with hfirst | ⟨-, hsecond⟩
    · obtain ⟨entry, hentry, rfl⟩ := Option.map_eq_some_iff.1 hfirst
      exact (Option.filter_eq_some_iff.1 hentry).2
    · split at hsecond
      · obtain ⟨entry, hentry, rfl⟩ := Option.map_eq_some_iff.1 hsecond
        exact (Option.filter_eq_some_iff.1 hentry).2
      · cases hsecond
  · cases h

/-- The slot of an input that is a literal leads to the id made for it. Under this id stands the
block of the file that has it, if there is one, and otherwise the last literal of all with this
id. So the literal is there if nothing else has its id. -/
theorem literal_inputs_lead_to_literals {blocks : List (String × Json)}
    (h : (Json.obj blocks).Ordered) {id slot target : String} {fields : List (String × Json)}
    {input code raw : Json} {rest : List Json} (hblock : (id, Json.obj fields) ∈ blocks)
    (hinput : (slot, input) ∈ inputs (.obj fields))
    (hselected : selected? id slot input = some (target, .arr (code :: raw :: rest))) :
    ∃ b literal n, (blockTree blocks).get? id = some b ∧
      (if isNested slot then b.statementSlots else b.valueSlots).get? slot = some (some target) ∧
      IsLiteral blocks literal ∧ literal.id = target ∧
      int64? code = some n ∧ Carries literal n (literalText raw) ∧
      (∀ other, (target, Json.obj other) ∈ blocks →
        ∃ b', (blockTree blocks).get? target = some b' ∧ ReadFrom target (.obj other) b') ∧
      ((∀ other, (target, Json.obj other) ∉ blocks) →
        (blockTree blocks).get? target = ((allLiterals blocks).filter (·.id = target)).getLast? ∧
        ((∀ other, IsLiteral blocks other → other.id = target → other = literal) →
          (blockTree blocks).get? target = some literal)) := by
  have hfile : ∀ {id fields}, (id, Json.obj fields) ∈ blocks →
      (blockTree blocks).get? id = some (fileBlock id (.obj fields)) := get?_of_mem h.sorted
  have hleads := leads_of_selected? hselected
  rw [← isSome_literalBlock? target] at hleads
  obtain ⟨literal, hliteral⟩ := Option.isSome_iff_exists.1 hleads
  obtain ⟨n, hn, hcarries⟩ := carries_of_literalBlock? hliteral
  have hid := id_of_literalBlock? hliteral
  have hexpanded : expanded? id slot input = some literal := by
    rw [expanded?, hselected]
    exact hliteral
  have hlookup : ((Json.obj fields).field? "inputs").bind (Json.field? slot) = some input := by
    rw [← Json.lookupIn_members]
    exact Dict.lookupIn_of_mem ((h.of_mem hblock).sorted_members "inputs") hinput
  have htarget : target? id slot input = some target := by
    cases input with
    | arr items => exact congrArg (Option.map fun p => p.2.str?.getD p.1) hselected
    | _ => cases hselected
  have hread := readFrom_fileBlock (h.of_mem hblock) id
  have hmember : IsLiteral blocks literal := ⟨id, _, slot, input, hblock, hinput, hexpanded⟩
  refine ⟨_, literal, n, hfile hblock, ?_, hmember, hid, hn, hcarries, fun other hother => ?_,
    fun hnone => ?_⟩
  · split
    next hnested => rw [hread.statementSlots, if_pos hnested, hlookup, Option.map_some, htarget]
    next hnested => rw [hread.valueSlots, if_neg hnested, hlookup, Option.map_some, htarget]
  · exact ⟨_, hfile hother, readFrom_fileBlock (h.of_mem hother) target⟩
  · rw [get?_blockTree h.sorted, fileBlock?_eq_none hnone, Option.none_or]
    refine ⟨rfl, fun hunique => ?_⟩
    have hmem : literal ∈ (allLiterals blocks).filter (·.id = target) :=
      List.mem_filter.2 ⟨mem_allLiterals.2 hmember, decide_eq_true hid⟩
    have hlast := List.getLast?_eq_some_getLast (List.ne_nil_of_mem hmem)
    obtain ⟨hliteral', hid'⟩ := List.mem_filter.1 (List.mem_of_getLast? hlast)
    rw [hlast, hunique _ (mem_allLiterals.1 hliteral') (of_decide_eq_true hid')]

theorem literal_inputs_lead_to_literals_greeting :
    selected? "a" "MESSAGE" (.arr [.int 1, .arr [.int 10, .str "hi"]]) =
        some ("a:MESSAGE", .arr [.int 10, .str "hi"]) ∧
      ∃ literal, (blockTree [("a", .obj Sample.greeting)]).get? "a:MESSAGE" = some literal ∧
        Carries literal 10 "hi" := by
  have hordered : (Json.obj [("a", .obj Sample.greeting)]).Ordered :=
    .obj (by decide) fun p hp => List.mem_singleton.1 hp ▸ Sample.ordered_greeting
  refine ⟨rfl, ?_⟩
  obtain ⟨b, literal, n, -, -, hliteral, -, hn, hcarries, -, hunique⟩ :=
    literal_inputs_lead_to_literals hordered (.head _) (.head _) rfl
  cases hn
  have hnone : ∀ other, ("a:MESSAGE", Json.obj other) ∉ [("a", Json.obj Sample.greeting)] := by
    simp
  refine ⟨literal, (hunique hnone).2 fun other hother _ => ?_, hcarries⟩
  -- There is one literal in all.
  have hone : ∀ b, IsLiteral [("a", Json.obj Sample.greeting)] b → b =
      { Block.ofOpcode "a:MESSAGE" "text" with
        fields := Dict.empty.insert "TEXT" (.text "hi") } := fun b hb =>
    List.mem_singleton.1 (mem_allLiterals.2 hb)
  rw [hone other hother, hone literal hliteral]

/-- A block of the file in the place of a literal: the slot leads to a block that reports where the
mouse is. -/
theorem literal_hidden_by_block :
    (Json.obj Sample.clash).Ordered ∧ ("a", Json.obj Sample.greeting) ∈ Sample.clash ∧
      ("MESSAGE", .arr [.int 1, .arr [.int 10, .str "hi"]]) ∈ inputs (.obj Sample.greeting) ∧
      selected? "a" "MESSAGE" (.arr [.int 1, .arr [.int 10, .str "hi"]]) =
        some ("a:MESSAGE", .arr [.int 10, .str "hi"]) ∧
      ((blockTree Sample.clash).get? "a").bind (·.valueSlot? "MESSAGE") = some "a:MESSAGE" ∧
      ∃ b, (blockTree Sample.clash).get? "a:MESSAGE" = some b ∧ ¬ Carries b 10 "hi" := by
  refine ⟨Sample.ordered_clash, .head _, .head _, rfl, rfl, _, rfl, fun h => ?_⟩
  exact absurd (h.asText (.inr rfl)).opcode (by decide)

end Project

end SpriteStage
