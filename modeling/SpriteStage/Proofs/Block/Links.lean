import Mathlib
import SpriteStage.Block.Tree

/-!
Links between blocks.

In a well-formed tree every link leads to a block, no two links lead to the same one, and no way
along links comes back. So what hangs on one port of a block has nothing in common with what hangs
on another (`WellFormed.apart`), and fewer blocks hang on a block than on the one above it
(`WellFormed.weight_lt`).
-/

namespace SpriteStage

open Relation

/-- The places of a block that links leave from. -/
inductive Port where
  | below
  | value (slot : String)
  | body (slot : String)
  deriving DecidableEq, Repr

structure Link where
  source : String
  port : Port
  target : String
  deriving DecidableEq, Repr

namespace Block

def target? (b : Block) : Port → Option String
  | .below => b.next
  | .value slot => b.valueSlot? slot
  | .body slot => b.statementSlot? slot

def slotLinks (key : String) (port : String → Port) (slots : Dict (Option String)) : List Link :=
  slots.entries.filterMap fun (slot, child) => child.map (⟨key, port slot, ·⟩)

/-- The links of the block that is kept under a key. -/
def links (b : Block) (key : String) : List Link :=
  b.next.toList.map (⟨key, .below, ·⟩) ++ slotLinks key .value b.valueSlots ++
    slotLinks key .body b.statementSlots

theorem mem_slotLinks {key : String} {port : String → Port} {slots : Dict (Option String)}
    {l : Link} :
    l ∈ slotLinks key port slots ↔
      ∃ slot, l = ⟨key, port slot, l.target⟩ ∧ (slots.get? slot).join = some l.target := by
  simp only [slotLinks, List.mem_filterMap, Option.map_eq_some_iff, Option.join_eq_some_iff,
    Dict.get?_eq_some_iff]
  constructor
  · rintro ⟨⟨slot, child⟩, hentry, target, rfl, rfl⟩
    exact ⟨slot, rfl, hentry⟩
  · rintro ⟨slot, hl, hentry⟩
    exact ⟨(slot, some l.target), hentry, l.target, rfl, hl.symm⟩

theorem mem_links {b : Block} {key : String} {l : Link} :
    l ∈ b.links key ↔ l.source = key ∧ b.target? l.port = some l.target := by
  obtain ⟨source, port, target⟩ := l
  simp only [links, List.mem_append, mem_slotLinks, List.mem_map, Option.mem_toList,
    Link.mk.injEq]
  cases port with
  | below => simp [target?, and_comm, eq_comm]
  | value slot => simp [target?, valueSlot?]
  | body slot => simp [target?, statementSlot?]

end Block

namespace BlockTree

def links (t : BlockTree) : List Link :=
  t.blocks.entries.flatMap fun (key, b) => b.links key

theorem mem_keys_of_get? {t : BlockTree} {id : String} {b : Block} (h : t.get? id = some b) :
    id ∈ t.blocks.keys :=
  List.mem_map_of_mem (Dict.get?_eq_some_iff.1 h)

theorem mem_links {t : BlockTree} {l : Link} :
    l ∈ t.links ↔ ∃ b, t.get? l.source = some b ∧ b.target? l.port = some l.target := by
  simp only [links, List.mem_flatMap, Block.mem_links, get?, Dict.get?_eq_some_iff]
  constructor
  · rintro ⟨⟨key, b⟩, hentry, rfl, htarget⟩
    exact ⟨b, hentry, htarget⟩
  · rintro ⟨b, hentry, htarget⟩
    exact ⟨(l.source, b), hentry, rfl, htarget⟩

/-- There is a link from the one block to the other. -/
def Leads (t : BlockTree) (source target : String) : Prop :=
  ∃ l ∈ t.links, l.source = source ∧ l.target = target

structure WellFormed (t : BlockTree) : Prop where
  keyed : ∀ p ∈ t.blocks.entries, p.2.id = p.1
  resolved : ∀ l ∈ t.links, (t.get? l.target).isSome = true
  unshared : (t.links.map (·.target)).Nodup
  acyclic : ∀ id, ¬ TransGen t.Leads id id

/-- The target can be come to from the source along links, also along none. -/
abbrev Reaches (t : BlockTree) : String → String → Prop :=
  ReflTransGen t.Leads

namespace WellFormed

variable {t : BlockTree}

/-! ### Different ports -/

theorem eq_of_target_eq (h : t.WellFormed) {l l' : Link} (hl : l ∈ t.links) (hl' : l' ∈ t.links)
    (htarget : l.target = l'.target) : l = l' :=
  List.inj_on_of_nodup_map h.unshared hl hl' htarget

theorem source_unique (h : t.WellFormed) {a b c : String} (ha : t.Leads a c) (hb : t.Leads b c) :
    a = b := by
  obtain ⟨l, hl, rfl, rfl⟩ := ha
  obtain ⟨l', hl', rfl, htarget⟩ := hb
  rw [h.eq_of_target_eq hl hl' htarget.symm]

/-- Of two blocks from which a third can be come to, one can be come to from the other. -/
theorem reaches_total (h : t.WellFormed) {a b x : String} (ha : t.Reaches a x)
    (hb : t.Reaches b x) : t.Reaches a b ∨ t.Reaches b a := by
  have hunique : Relator.RightUnique (Function.swap t.Leads) := fun _ _ _ => h.source_unique
  have htotal := ReflTransGen.total_of_right_unique hunique (reflTransGen_swap.2 ha)
    (reflTransGen_swap.2 hb)
  exact htotal.symm.imp reflTransGen_swap.1 reflTransGen_swap.1

theorem not_reaches_source (h : t.WellFormed) {l : Link} (hl : l ∈ t.links) :
    ¬ t.Reaches l.target l.source := by
  intro hback
  exact h.acyclic l.source (TransGen.head' ⟨l, hl, rfl, rfl⟩ hback)

theorem not_reaches_sibling (h : t.WellFormed) {l l' : Link} (hl : l ∈ t.links) (hl' : l' ∈ t.links)
    (hsource : l.source = l'.source) (hne : l ≠ l') : ¬ t.Reaches l.target l'.target := by
  intro hreach
  -- The last step into the sibling comes from the common source, which closes a circle.
  rcases ReflTransGen.cases_tail hreach with heq | ⟨last, hreach, hstep⟩
  · exact hne (h.eq_of_target_eq hl hl' heq.symm)
  · have hlast : last = l.source := h.source_unique hstep ⟨l', hl', hsource.symm, rfl⟩
    exact h.not_reaches_source hl (hlast ▸ hreach)

/-- What hangs on one port of a block does not hang on another. -/
theorem apart (h : t.WellFormed) {l l' : Link} (hl : l ∈ t.links) (hl' : l' ∈ t.links)
    (hsource : l.source = l'.source) (hne : l ≠ l') {x : String} (hx : t.Reaches l.target x) :
    ¬ t.Reaches l'.target x := by
  intro hx'
  rcases h.reaches_total hx hx' with hreach | hreach
  · exact h.not_reaches_sibling hl hl' hsource hne hreach
  · exact h.not_reaches_sibling hl' hl hsource.symm hne.symm hreach

end WellFormed

/-! ### What hangs on a port -/

/-- The blocks that can be come to from a start, with the start itself. -/
def under (t : BlockTree) (start : Option String) : Set String :=
  { x | ∃ id, start = some id ∧ t.Reaches id x }

section

variable {t : BlockTree} {id : String} {b : Block}

theorem reaches_of_mem_under (hb : t.get? id = some b) (port : Port) {x : String}
    (hx : x ∈ t.under (b.target? port)) : t.Reaches id x := by
  obtain ⟨child, hchild, hreach⟩ := hx
  exact .head ⟨⟨id, port, child⟩, mem_links.2 ⟨b, hb, hchild⟩, rfl, rfl⟩ hreach

theorem WellFormed.notMem_under (h : t.WellFormed) (hb : t.get? id = some b) (port : Port) :
    id ∉ t.under (b.target? port) := by
  rintro ⟨child, hchild, hreach⟩
  exact h.not_reaches_source (l := ⟨id, port, child⟩) (mem_links.2 ⟨b, hb, hchild⟩) hreach

theorem WellFormed.disjoint_under (h : t.WellFormed) (hb : t.get? id = some b) {port port' : Port}
    (hne : port ≠ port') :
    Disjoint (t.under (b.target? port)) (t.under (b.target? port')) := by
  refine Set.disjoint_left.2 ?_
  rintro x ⟨child, hchild, hreach⟩ ⟨child', hchild', hreach'⟩
  have hlink : (⟨id, port, child⟩ : Link) ∈ t.links := mem_links.2 ⟨b, hb, hchild⟩
  have hlink' : (⟨id, port', child'⟩ : Link) ∈ t.links := mem_links.2 ⟨b, hb, hchild'⟩
  refine h.apart hlink hlink' rfl (fun heq => ?_) hreach hreach'
  cases heq
  exact hne rfl

/-- The blocks that hang on the slots of a block. -/
def inside (t : BlockTree) (b : Block) : Set String :=
  { x | ∃ port, port ≠ .below ∧ x ∈ t.under (b.target? port) }

theorem WellFormed.notMem_inside (h : t.WellFormed) (hb : t.get? id = some b) :
    id ∉ t.inside b := by
  rintro ⟨port, -, hid⟩
  exact h.notMem_under hb port hid

theorem WellFormed.disjoint_inside (h : t.WellFormed) (hb : t.get? id = some b) :
    Disjoint (t.inside b) (t.under b.next) := by
  refine Set.disjoint_left.2 ?_
  rintro x ⟨port, hport, hx⟩ hbelow
  exact Set.disjoint_left.1 (h.disjoint_under hb hport) hx hbelow

/-- What hangs on a block, with the block, hangs on a link to it. -/
theorem subset_under (hb : t.get? id = some b) :
    {id} ∪ (t.inside b ∪ t.under b.next) ⊆ t.under (some id) := by
  rintro x (rfl | ⟨port, -, hx⟩ | hx)
  · exact ⟨x, rfl, .refl⟩
  · exact ⟨id, rfl, reaches_of_mem_under hb port hx⟩
  · exact ⟨id, rfl, reaches_of_mem_under hb .below hx⟩

theorem WellFormed.get?_child (h : t.WellFormed) {child : String} (port : Port)
    (hb : t.get? id = some b) (hchild : b.target? port = some child) : ∃ c, t.get? child = some c :=
  Option.isSome_iff_exists.1 (h.resolved ⟨id, port, child⟩ (mem_links.2 ⟨b, hb, hchild⟩))

theorem WellFormed.get?_hat (h : t.WellFormed) {hat : Block} (hhat : hat ∈ t.hats) :
    t.get? hat.id = some hat := by
  have hvalue : hat ∈ t.blocks.values := (List.mem_filter.1 (List.mem_mergeSort.1 hhat)).1
  obtain ⟨⟨key, b⟩, hentry, rfl⟩ := List.mem_map.1 hvalue
  rw [h.keyed _ hentry]
  exact Dict.get?_eq_some_iff.2 hentry

end

/-! ### Weights -/

open Classical in
noncomputable def hanging (t : BlockTree) (id : String) : Finset String :=
  t.blocks.keys.toFinset.filter (TransGen t.Leads id)

theorem mem_hanging {t : BlockTree} {id x : String} :
    x ∈ t.hanging id ↔ x ∈ t.blocks.keys ∧ TransGen t.Leads id x := by
  simp [hanging]

/-- How many blocks hang on the one with an id. -/
noncomputable def weight (t : BlockTree) (id : String) : Nat :=
  (t.hanging id).card

theorem weight_le (t : BlockTree) (id : String) : t.weight id ≤ t.blocks.size := by
  have hsub : t.hanging id ⊆ t.blocks.keys.toFinset :=
    fun x hx => List.mem_toFinset.2 (mem_hanging.1 hx).1
  calc t.weight id
      ≤ t.blocks.keys.toFinset.card := Finset.card_le_card hsub
    _ ≤ t.blocks.keys.length := List.toFinset_card_le _
    _ = t.blocks.size := List.length_map _

theorem WellFormed.weight_lt {t : BlockTree} (h : t.WellFormed) {l : Link} (hl : l ∈ t.links) :
    t.weight l.target < t.weight l.source := by
  have hstep : TransGen t.Leads l.source l.target := .single ⟨l, hl, rfl, rfl⟩
  obtain ⟨b, hb⟩ := Option.isSome_iff_exists.1 (h.resolved l hl)
  have hkey : l.target ∈ t.blocks.keys := List.mem_map_of_mem (Dict.get?_eq_some_iff.1 hb)
  apply Finset.card_lt_card
  refine (Finset.ssubset_iff_of_subset fun x hx => ?_).2 ⟨l.target, ?_, ?_⟩
  · obtain ⟨hx, hreach⟩ := mem_hanging.1 hx
    exact mem_hanging.2 ⟨hx, hstep.trans hreach⟩
  · exact mem_hanging.2 ⟨hkey, hstep⟩
  · exact fun hx => h.acyclic l.target (mem_hanging.1 hx).2

theorem WellFormed.weight_child {t : BlockTree} (h : t.WellFormed) {id child : String} {b : Block}
    (port : Port) (hb : t.get? id = some b) (hchild : b.target? port = some child) :
    t.weight child < t.weight id :=
  h.weight_lt (l := ⟨id, port, child⟩) (mem_links.2 ⟨b, hb, hchild⟩)

/-- Links that all lead upwards in some numbering of the blocks make no circle. -/
theorem acyclic_of_order {t : BlockTree} (order : String → Nat)
    (h : ∀ l ∈ t.links, order l.source < order l.target) (id : String) :
    ¬ TransGen t.Leads id id := by
  have hlt : ∀ x, TransGen t.Leads id x → order id < order x := by
    intro x hx
    induction hx with
    | single hstep =>
      obtain ⟨l, hl, rfl, rfl⟩ := hstep
      exact h l hl
    | tail _ hstep ih =>
      obtain ⟨l, hl, rfl, rfl⟩ := hstep
      exact ih.trans (h l hl)
  exact fun hcycle => Nat.lt_irrefl _ (hlt id hcycle)

end BlockTree

end SpriteStage
