import SpriteStage.Proofs.Compile.Hats

/-!
The order in which blocks are listed.

Compilation looks blocks up by their ids, counts them, and sorts the hats among them. None of this
depends on the order in which the blocks are listed: two different blocks of a tree have different
ids, so no two hats have the same place on the canvas, whatever their coordinates are, and there is
one way to sort them (`hatsOf_eq_of_perm`).
-/

namespace SpriteStage

theorem Dict.lookupIn_eq_of_perm {α : Type} {l m : List (String × α)} (h : l.Perm m)
    (hkeys : (l.map (·.1)).Nodup) (key : String) : lookupIn key l = lookupIn key m := by
  induction h with
  | nil => rfl
  | cons entry _ ih => rw [lookupIn, lookupIn, ih (List.nodup_cons.1 hkeys).2]
  | swap first second rest =>
    have hne : second.1 ≠ first.1 := by
      intro heq
      simp [heq] at hkeys
    simp only [lookupIn]
    by_cases hfirst : first.1 = key
    · have hsecond : second.1 ≠ key := fun heq => hne (heq.trans hfirst.symm)
      rw [if_pos hfirst, if_neg hsecond, if_pos hfirst]
    · rw [if_neg hfirst, if_neg hfirst]
  | trans hlm _ ihl ihm =>
    have hkeys' := (hlm.map (·.1)).nodup_iff.1 hkeys
    exact (ihl hkeys).trans (ihm hkeys')

namespace BlockTree

/-- The id decides where rows and columns do not. -/
theorem id_of_place_eq {a b : Block} (h : a.place = b.place) : a.id = b.id :=
  congrArg (fun p => (ofLex (ofLex p).2).2) h

theorem hatsOf_eq_of_perm {l m : List Block} (h : l.Perm m) (hids : (l.map (·.id)).Nodup) :
    hatsOf l = hatsOf m := by
  have hperm : (hatsOf l).Perm (hatsOf m) :=
    (hatsOf_perm l).trans ((h.filter _).trans (hatsOf_perm m).symm)
  refine hperm.eq_of_pairwise ?_ (hatsOf_pairwise l) (hatsOf_pairwise m)
  intro a b ha hb hab hba
  have hmem : ∀ c, c ∈ hatsOf l → c ∈ l :=
    fun c hc => (List.mem_filter.1 ((hatsOf_perm l).mem_iff.1 hc)).1
  have hid : a.id = b.id := id_of_place_eq (le_antisymm hab hba)
  exact List.inj_on_of_nodup_map hids (hmem a ha) (hmem b (hperm.mem_iff.2 hb)) hid

/-- Every block is kept under its own id. -/
def Keyed (t : BlockTree) : Prop :=
  ∀ p ∈ t.blocks.entries, p.2.id = p.1

theorem Keyed.insert {t : BlockTree} (h : t.Keyed) (b : Block) : (t.insert b).Keyed := by
  intro p hp
  rcases Dict.mem_insertIn hp with rfl | hp
  · rfl
  · exact h p hp

theorem keyed_foldl_insert (blocks : List Block) : (blocks.foldl insert .empty).Keyed := by
  have hempty : Keyed .empty := by
    intro p hp
    cases hp
  have hfold : ∀ t : BlockTree, t.Keyed → (blocks.foldl insert t).Keyed := by
    induction blocks with
    | nil => exact fun t ht => ht
    | cons b rest ih => exact fun t ht => ih (t.insert b) (ht.insert b)
  exact hfold .empty hempty

theorem nodup_keys (t : BlockTree) : (t.blocks.entries.map (·.1)).Nodup :=
  List.pairwise_map.2 (t.blocks.sorted.imp ne_of_lt)

theorem Keyed.nodup_ids {t : BlockTree} (h : t.Keyed) :
    ((t.blocks.entries.map (·.2)).map (·.id)).Nodup := by
  have hids : (t.blocks.entries.map (·.2)).map (·.id) = t.blocks.entries.map (·.1) := by
    rw [List.map_map]
    exact List.map_congr_left h
  rw [hids]
  exact t.nodup_keys

end BlockTree

namespace Compile

/-- The program of an entity's blocks, and the warnings about it, when the blocks are listed in this
order. -/
def entityFrom (name : String) (entries : List (String × Block)) : EntityProgram × List Warning :=
  let compiled := hats (Dict.lookupIn · entries) (entries.length + 1)
    (BlockTree.hatsOf (entries.map (·.2)))
  (compiled.1, compiled.2.map fun c => ⟨name, c.1, c.2⟩)

theorem entityFrom_eq {t : BlockTree} (h : t.Keyed) (name : String)
    {entries : List (String × Block)} (hperm : entries.Perm t.blocks.entries) :
    entityFrom name entries = entity name t := by
  have hkeys : (entries.map (·.1)).Nodup := (hperm.map (·.1)).nodup_iff.2 t.nodup_keys
  have hvalues : (entries.map (·.2)).Perm (t.blocks.entries.map (·.2)) := hperm.map (·.2)
  have hids : ((entries.map (·.2)).map (·.id)).Nodup := (hvalues.map (·.id)).nodup_iff.2 h.nodup_ids
  have hlookup : (Dict.lookupIn · entries) = (Dict.lookupIn · t.blocks.entries) :=
    funext (Dict.lookupIn_eq_of_perm hperm hkeys)
  rw [entityFrom, hlookup, BlockTree.hatsOf_eq_of_perm hvalues hids, hperm.length_eq]
  rfl

/-- In whatever order the blocks of a tree are listed, they make the same program with the same
warnings. -/
theorem program_ignores_listing (name : String) (blocks : List Block)
    {entries entries' : List (String × Block)}
    (h : entries.Perm (blocks.foldl BlockTree.insert .empty).blocks.entries)
    (h' : entries'.Perm (blocks.foldl BlockTree.insert .empty).blocks.entries) :
    entityFrom name entries = entityFrom name entries' ∧
      entityFrom name entries = entity name (blocks.foldl BlockTree.insert .empty) := by
  have hkeyed := BlockTree.keyed_foldl_insert blocks
  exact ⟨(entityFrom_eq hkeyed name h).trans (entityFrom_eq hkeyed name h').symm,
    entityFrom_eq hkeyed name h⟩

namespace Sample

/-- Start hats whose rows are no numbers or zeros of both signs, two of them in one place. -/
def stacked : List Block :=
  let hat := fun id y => { block id .whenFlagClicked [] [] none with y }
  [hat "d" (0 / 0), hat "b" 0, hat "c" 0, hat "a" (-0.0)]

end Sample

-- The zeros of both signs are different rows, and what is no number is a row below them.
theorem program_ignores_listing_stacked :
    let t := Sample.stacked.foldl BlockTree.insert .empty
    (Number.orderKey (-0.0) < Number.orderKey 0 ∧ Number.orderKey 0 < Number.orderKey (0 / 0)) ∧
      entityFrom "Cat" t.blocks.entries.reverse = entityFrom "Cat" t.blocks.entries ∧
      entityFrom "Cat" t.blocks.entries.reverse = entity "Cat" t := by
  intro t
  refine ⟨by decide +kernel, ?_⟩
  exact program_ignores_listing "Cat" Sample.stacked (List.reverse_perm t.blocks.entries) (.refl _)

end Compile

end SpriteStage
