import SpriteStage.Proofs.World.Edits

/-!
Variables as a store.

Reading and writing find the same cell (`variableOf?_changeVariable`): a write is seen under the names
that share its cell and under no other. No edit of a script adds or removes a variable of an entity,
and global variables only come to be, so a name never changes its cell (`Edited.keepsCells`).
-/

namespace SpriteStage.World

variable {w : World} {id id' : EntityId} {name name' : String}

/-! ### Cells -/

/-- The entity has a variable of its own with the name. -/
def Owns (w : World) (id : EntityId) (name : String) : Prop :=
  ∃ e, w.entities[id]? = some e ∧ e.vars.contains name = true

/-- Both entities mean one variable by their names: the one that an entity owns, or the global one
that neither of them hides. -/
def Shares (w : World) (id : EntityId) (name : String) (id' : EntityId) (name' : String) : Prop :=
  name' = name ∧ (id' = id ∧ w.Owns id name ∨ ¬ w.Owns id name ∧ ¬ w.Owns id' name)

theorem cell_of_owns (h : w.Owns id name) : w.cell id name = .own id name := by
  obtain ⟨e, he, hc⟩ := h
  simp [cell, he, hc]

theorem cell_of_not_owns (h : ¬ w.Owns id name) : w.cell id name = .shared name := by
  unfold cell
  split
  next e he =>
    have hc : ¬ e.vars.contains name = true := fun hc => h ⟨e, he, hc⟩
    rw [if_neg hc]
  · rfl

theorem cell_eq_cell_iff : w.cell id' name' = w.cell id name ↔ w.Shares id name id' name' := by
  unfold Shares
  by_cases ho : w.Owns id name <;> by_cases ho' : w.Owns id' name'
  · rw [cell_of_owns ho, cell_of_owns ho', Cell.own.injEq]
    constructor
    · rintro ⟨rfl, rfl⟩
      exact ⟨rfl, .inl ⟨rfl, ho⟩⟩
    · rintro ⟨rfl, ⟨rfl, -⟩ | ⟨hno, -⟩⟩
      · exact ⟨rfl, rfl⟩
      · exact absurd ho hno
  · rw [cell_of_owns ho, cell_of_not_owns ho']
    simp only [reduceCtorEq, false_iff]
    rintro ⟨rfl, ⟨rfl, -⟩ | ⟨hno, -⟩⟩
    · exact ho' ho
    · exact hno ho
  · rw [cell_of_not_owns ho, cell_of_owns ho']
    simp only [reduceCtorEq, false_iff]
    rintro ⟨rfl, ⟨rfl, h⟩ | ⟨-, hno⟩⟩
    · exact ho h
    · exact hno ho'
  · rw [cell_of_not_owns ho, cell_of_not_owns ho', Cell.shared.injEq]
    constructor
    · rintro rfl
      exact ⟨rfl, .inr ⟨ho, ho'⟩⟩
    · exact And.left

/-- A name finds the entity's own variable first, and else the global one. -/
theorem variableOf?_eq_or (w : World) (id : EntityId) (name : String) :
    w.variableOf? id name =
      (w.entities[id]?.bind (·.vars.get? name)).or (w.globals.get? name) := by
  unfold variableOf? cell
  cases he : w.entities[id]? with
  | none => rfl
  | some e =>
    cases hv : e.vars.get? name with
    | none => simp [Dict.contains, hv, cellVariable?]
    | some v => simp [Dict.contains, hv, cellVariable?, he]

/-! ### Writing a cell -/

theorem entities_setCell_own (w : World) (id : EntityId) (name : String) (v : Variable)
    (other : EntityId) :
    (w.setCell (.own id name) v).entities[other]? = w.entities[other]?.map fun e =>
      if id = other then { e with vars := e.vars.insert name v } else e := by
  simp only [setCell, List.getElem?_modify]
  cases w.entities[other]? with
  | none => rfl
  | some e => by_cases h : id = other <;> simp [h]

theorem owns_setCell (w : World) (id : EntityId) (name : String) (v : Variable) (id' : EntityId)
    (name' : String) : (w.setCell (w.cell id name) v).Owns id' name' ↔ w.Owns id' name' := by
  by_cases ho : w.Owns id name
  · rw [cell_of_owns ho]
    obtain ⟨e, he, hc⟩ := ho
    unfold Owns
    rw [entities_setCell_own]
    by_cases hid : id = id'
    · subst hid
      -- The name that is written is there already.
      have hsame : (e.vars.insert name v).contains name' = e.vars.contains name' := by
        simp only [Dict.contains, Dict.get?_insert]
        split
        next hname => simpa [Dict.contains, hname] using hc.symm
        · rfl
      simp [he, hsame]
    · cases w.entities[id']? <;> simp [hid]
  · rw [cell_of_not_owns ho]
    rfl

theorem cell_setCell (w : World) (id : EntityId) (name : String) (v : Variable) (id' : EntityId)
    (name' : String) : (w.setCell (w.cell id name) v).cell id' name' = w.cell id' name' := by
  by_cases ho : w.Owns id' name'
  · rw [cell_of_owns ho, cell_of_owns ((owns_setCell w id name v id' name').2 ho)]
  · rw [cell_of_not_owns ho, cell_of_not_owns fun h => ho ((owns_setCell w id name v id' name').1 h)]

theorem cellVariable?_setCell (w : World) (id : EntityId) (name : String) (v : Variable)
    (id' : EntityId) (name' : String) :
    (w.setCell (w.cell id name) v).cellVariable? (w.cell id' name') =
      if w.cell id' name' = w.cell id name then some v else w.cellVariable? (w.cell id' name') := by
  by_cases ho : w.Owns id name
  · rw [cell_of_owns ho]
    by_cases ho' : w.Owns id' name'
    · rw [cell_of_owns ho']
      obtain ⟨e, he, -⟩ := ho'
      simp only [cellVariable?, entities_setCell_own, he, Option.map_some, Option.bind_some,
        Cell.own.injEq]
      by_cases hid : id = id'
      · subst hid
        by_cases hname : name = name' <;> simp [Dict.get?_insert, hname, eq_comm]
      · simp [hid, Ne.symm hid]
    · rw [cell_of_not_owns ho']
      simp [cellVariable?, setCell]
  · rw [cell_of_not_owns ho]
    by_cases ho' : w.Owns id' name'
    · rw [cell_of_owns ho']
      simp [cellVariable?, setCell]
    · rw [cell_of_not_owns ho']
      simp [cellVariable?, setCell, Dict.get?_insert, eq_comm]

/-! ### Laws of the store -/

/-- The variable that an entity means by a name; one that is not there is as it would come to be. -/
def variableOf (w : World) (id : EntityId) (name : String) : Variable :=
  (w.variableOf? id name).getD freshVariable

theorem variableValue_eq (w : World) (id : EntityId) (name : String) :
    w.variableValue id name = (w.variableOf id name).value := by
  unfold variableValue variableOf
  cases w.variableOf? id name <;> rfl

theorem variableOf?_changeVariable (w : World) (id : EntityId) (name : String)
    (f : Variable → Variable) (id' : EntityId) (name' : String) :
    (w.changeVariable id name f).variableOf? id' name' =
      if w.cell id' name' = w.cell id name then some (f (w.variableOf id name))
      else w.variableOf? id' name' := by
  -- The host is told, but no variable depends on that.
  show (w.setCell (w.cell id name) _).cellVariable? ((w.setCell (w.cell id name) _).cell id' name') = _
  rw [cell_setCell, cellVariable?_setCell]
  rfl

theorem variableOf_changeVariable (w : World) (id : EntityId) (name : String)
    (f : Variable → Variable) (id' : EntityId) (name' : String) :
    (w.changeVariable id name f).variableOf id' name' =
      if w.cell id' name' = w.cell id name then f (w.variableOf id' name')
      else w.variableOf id' name' := by
  rw [variableOf, variableOf?_changeVariable]
  split
  next hc =>
    have hsame : w.variableOf id' name' = w.variableOf id name := by
      unfold variableOf variableOf?
      rw [hc]
    rw [Option.getD_some, hsame]
  · rfl

/-- What a change of some part of a variable leaves alone is left alone in all variables. -/
theorem part_changeVariable {α : Type} (part : Variable → α) {f : Variable → Variable}
    (hf : ∀ v, part (f v) = part v) (w : World) (id : EntityId) (name : String) (id' : EntityId)
    (name' : String) :
    part ((w.changeVariable id name f).variableOf id' name') = part (w.variableOf id' name') := by
  rw [variableOf_changeVariable]
  split
  · exact hf _
  · rfl

/-- Whether and where the host shows the variable. -/
def look (w : World) (id : EntityId) (name : String) : Bool × Option (Float × Float) :=
  ((w.variableOf id name).visible, (w.variableOf id name).displayPosition)

structure StoreLaws (w : World) : Prop where
  found : ∀ id name, w.variableOf? id name =
    (w.entities[id]?.bind (·.vars.get? name)).or (w.globals.get? name)
  read_back : ∀ id name value, (w.setVar id name value).variableValue id name = value
  others : ∀ id name value id' name',
    (w.setVar id name value).variableValue id' name' ≠ w.variableValue id' name' →
      w.Shares id name id' name'
  look_setVar : ∀ id name value id' name',
    (w.setVar id name value).look id' name' = w.look id' name'
  look_changeVar : ∀ id name delta id' name',
    (w.changeVar id name delta).look id' name' = w.look id' name'
  value_setVariableVisible : ∀ id name visible id' name',
    (w.setVariableVisible id name visible).variableValue id' name' = w.variableValue id' name'

theorem storeLaws (w : World) : w.StoreLaws := by
  have hlook : ∀ id name value id' name',
      (w.setVar id name value).look id' name' = w.look id' name' :=
    fun id name value => part_changeVariable (f := fun v => { v with value })
      (fun v => (v.visible, v.displayPosition)) (fun _ => rfl) w id name
  refine ⟨w.variableOf?_eq_or, fun id name value => ?_, fun id name value id' name' hne => ?_, hlook,
    fun id name delta => hlook id name _, fun id name visible id' name' => ?_⟩
  · rw [variableValue_eq, setVar, variableOf_changeVariable, if_pos rfl]
  · rw [← cell_eq_cell_iff]
    refine Classical.byContradiction fun hc => hne ?_
    rw [variableValue_eq, setVar, variableOf_changeVariable, if_neg hc, variableValue_eq]
  · rw [variableValue_eq, variableValue_eq]
    exact part_changeVariable (f := fun v => { v with visible }) Variable.value (fun _ => rfl)
      w id name id' name'

/-! ### What edits keep -/

/-- Entities have the same variables of their own, and no global one is gone. -/
structure KeepsCells (w w' : World) : Prop where
  owns : ∀ id name, w'.Owns id name ↔ w.Owns id name
  shared : ∀ name, w.globals.contains name = true → w'.globals.contains name = true

namespace KeepsCells

variable {w' w'' : World}

theorem refl (w : World) : w.KeepsCells w :=
  ⟨fun _ _ => .rfl, fun _ => id⟩

theorem trans (h : w.KeepsCells w') (h' : w'.KeepsCells w'') : w.KeepsCells w'' :=
  ⟨fun id name => (h'.owns id name).trans (h.owns id name),
    fun name hc => h'.shared name (h.shared name hc)⟩

theorem of_eq (he : w'.entities = w.entities) (hg : w'.globals = w.globals) : w.KeepsCells w' := by
  refine ⟨fun id name => ?_, fun name => ?_⟩
  · unfold Owns
    rw [he]
  · rw [hg]
    exact id

theorem setEntity {e e' : Entity} (he : w.entities[id]? = some e) (hv : e'.vars = e.vars) :
    w.KeepsCells (w.setEntity id e') := by
  refine ⟨fun other name => ?_, fun _ hc => hc⟩
  obtain ⟨hlt, hget⟩ := List.getElem?_eq_some_iff.1 he
  unfold Owns World.setEntity
  by_cases hid : id = other
  · subst hid
    simp [hlt, hget, hv]
  · simp [hid]

theorem setCell (w : World) (id : EntityId) (name : String) (v : Variable) :
    w.KeepsCells (w.setCell (w.cell id name) v) := by
  refine ⟨owns_setCell w id name v, fun other hc => ?_⟩
  cases w.cell id name with
  | own id name => exact hc
  | shared name =>
    simp only [World.setCell, Dict.contains, Dict.get?_insert] at hc ⊢
    split
    · rfl
    · exact hc

/-- A name means the same cell as before. -/
theorem cell (h : w.KeepsCells w') (id : EntityId) (name : String) :
    w'.cell id name = w.cell id name := by
  by_cases ho : w.Owns id name
  · rw [cell_of_owns ho, cell_of_owns ((h.owns id name).2 ho)]
  · rw [cell_of_not_owns ho, cell_of_not_owns fun ho' => ho ((h.owns id name).1 ho')]

/-- What is there stays there. -/
theorem exists_variable (h : w.KeepsCells w') (hs : (w.variableOf? id name).isSome = true) :
    (w'.variableOf? id name).isSome = true := by
  by_cases ho : w.Owns id name
  · obtain ⟨e, he, hc⟩ := (h.owns id name).2 ho
    rw [variableOf?, cell_of_owns ⟨e, he, hc⟩, cellVariable?, he]
    exact hc
  · have ho' : ¬ w'.Owns id name := fun ho' => ho ((h.owns id name).1 ho')
    rw [variableOf?, cell_of_not_owns ho] at hs
    rw [variableOf?, cell_of_not_owns ho']
    exact h.shared name hs

end KeepsCells

theorem Edited.keepsCells {w' : World} {speech mouse : Bool} (h : w.Edited speech mouse w') :
    w.KeepsCells w' := by
  induction h with
  | refl w => exact .refl w
  | trans _ _ ih ih' => exact ih.trans ih'
  | notify w => exact .of_eq rfl rfl
  | @bubble w id e _ he =>
    have hset : w.KeepsCells (w.setEntity id { e with speechSeq := e.speechSeq + 1 }) :=
      .setEntity he rfl
    exact hset.trans (.of_eq rfl rfl)
  | update he _ _ _ hv _ => exact (KeepsCells.setEntity he hv).trans (.of_eq rfl rfl)
  | setCell w id name v => exact .setCell w id name v
  | record w record => exact .of_eq rfl rfl
  | timer w | requests w => exact .of_eq rfl rfl

end SpriteStage.World
