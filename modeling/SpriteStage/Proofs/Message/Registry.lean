import SpriteStage.Proofs.Message.Listeners

/-!
The registry behind a switchboard: which entities have which programs, in the order in which they
were registered.

The switchboard keeps three tables and edits them in place. Whatever is done to it, they hold just
the scripts of the registry (`Serves`): those under one name stand in the order of registration, and
within an entity in the order of the names.
-/

namespace SpriteStage

/-- Entities with the programs whose scripts listen, the one registered last at the end. -/
abbrev Registry := List (EntityId × EntityProgram)

/-- The scripts under all names with a normal form, in the order of the names. -/
def scriptsUnder (normal : String → String) (scripts : Dict (List Script)) (name : String) :
    List Script :=
  (scripts.entries.filter fun entry => normal entry.1 = name).flatMap (·.2)

namespace Registry

/-- What the chosen scripts of all entities wait as. -/
def heard (r : Registry) (scripts : EntityProgram → List Script) : List Listener :=
  r.flatMap fun (entity, p) => (scripts p).map (⟨entity, ·⟩)

/-- The scripts of an entity that wait for a click on it. -/
def clicked (r : Registry) (entity : EntityId) : List Listener :=
  (((r.lookup entity).map (·.onClick)).getD []).map (⟨entity, ·⟩)

def clear (r : Registry) (entity : EntityId) : Registry :=
  r.filter (·.1 != entity)

variable (r : Registry) (entity : EntityId) (p : EntityProgram)

theorem heard_append (more : Registry) (scripts : EntityProgram → List Script) :
    heard (r ++ more) scripts = heard r scripts ++ heard more scripts :=
  List.flatMap_append

theorem heard_cons (entry : EntityId × EntityProgram) (scripts : EntityProgram → List Script) :
    heard (entry :: r) scripts = (scripts entry.2).map (⟨entry.1, ·⟩) ++ heard r scripts :=
  List.flatMap_cons

theorem heard_single (scripts : EntityProgram → List Script) :
    heard [(entity, p)] scripts = (scripts p).map (⟨entity, ·⟩) :=
  List.flatMap_singleton _ _

theorem heard_clear (scripts : EntityProgram → List Script) :
    (r.clear entity).heard scripts = (r.heard scripts).filter (·.entity != entity) := by
  induction r with
  | nil => rfl
  | cons entry rest ih =>
    obtain ⟨other, q⟩ := entry
    have howner : ∀ l ∈ (scripts q).map fun s => (⟨other, s⟩ : Listener), l.entity = other := by
      intro l hl
      obtain ⟨s, -, rfl⟩ := List.mem_map.1 hl
      rfl
    rw [heard_cons, List.filter_append, ← ih]
    by_cases h : other = entity
    · rw [List.filter_eq_nil_iff.2 fun l hl => by simp [howner l hl, h]]
      simp [clear, h]
    · rw [List.filter_eq_self.2 fun l hl => by simp [howner l hl, h]]
      simp [clear, h, heard]

/-- The slot of a program in the table of clicks. -/
def clickSlot : EntityId × EntityProgram → Option (EntityId × List Listener)
  | (entity, p) => if p.onClick.isEmpty then none else some (entity, p.onClick.map (⟨entity, ·⟩))

theorem filterMap_clickSlot_clear :
    (r.clear entity).filterMap clickSlot = (r.filterMap clickSlot).filter (·.1 != entity) := by
  induction r with
  | nil => rfl
  | cons entry rest ih =>
    obtain ⟨other, q⟩ := entry
    unfold clear at ih ⊢
    by_cases h : other = entity <;> by_cases hq : q.onClick.isEmpty <;>
      simp [clickSlot, h, hq, ih]

theorem flatMap_clickSlot : (r.filterMap clickSlot).flatMap (·.2) = r.heard (·.onClick) := by
  induction r with
  | nil => rfl
  | cons entry rest ih =>
    obtain ⟨other, q⟩ := entry
    rw [heard_cons, ← ih]
    by_cases hq : q.onClick = [] <;> simp [clickSlot, hq]

end Registry

/-! ### Slots -/

namespace Slots

theorem get_of_notMem {slots : Slots} {name : String} (h : name ∉ slots.map (·.1)) :
    slots.get name = [] := by
  induction slots with
  | nil => rfl
  | cons slot rest ih =>
    rw [List.map_cons, List.mem_cons, not_or] at h
    rw [get, if_neg (Ne.symm h.1)]
    exact ih h.2

theorem get_clear {slots : Slots} (h : (slots.map (·.1)).Nodup) (entity : EntityId)
    (name : String) :
    (slots.clear entity).get name = (slots.get name).filter (·.entity != entity) := by
  induction slots with
  | nil => rfl
  | cons slot rest ih =>
    obtain ⟨other, present⟩ := slot
    obtain ⟨hother, hrest⟩ := List.nodup_cons.1 h
    have hclear : clear ((other, present) :: rest) entity =
        if (present.filter (·.entity != entity)).isEmpty then clear rest entity
        else (other, present.filter (·.entity != entity)) :: clear rest entity := by
      by_cases he : (present.filter (·.entity != entity)).isEmpty <;> simp [clear, he]
    rw [hclear, get]
    by_cases hname : other = name
    · subst hname
      -- If nothing is left of its slot, the name must not be found further on.
      have hgone : (clear rest entity).get other = [] := by
        rw [ih hrest, get_of_notMem hother, List.filter_nil]
      rw [if_pos rfl]
      split
      next he => rw [hgone, List.isEmpty_iff.1 he]
      · rw [get, if_pos rfl]
    · rw [if_neg hname, ← ih hrest]
      split
      · rfl
      · rw [get, if_neg hname]

theorem all_clear (slots : Slots) (entity : EntityId) :
    (slots.clear entity).all = slots.all.filter (·.entity != entity) := by
  induction slots with
  | nil => rfl
  | cons slot rest ih =>
    obtain ⟨other, present⟩ := slot
    rw [all_cons, List.filter_append, ← ih]
    by_cases he : present.filter (·.entity != entity) = [] <;> simp [clear, all, he]

theorem nodup_clear {slots : Slots} (h : (slots.map (·.1)).Nodup) (entity : EntityId) :
    ((slots.clear entity).map (·.1)).Nodup := by
  have hfst : slots.map (·.1) = (slots.map fun slot =>
      (slot.1, slot.2.filter (·.entity != entity))).map (·.1) := by
    simp [Function.comp_def]
  rw [hfst] at h
  exact h.sublist (List.filter_sublist.map _)

theorem map_fst_extend (name : String) (listeners : List Listener) (slots : Slots) :
    (extend name listeners slots).map (·.1) =
      if name ∈ slots.map (·.1) then slots.map (·.1) else slots.map (·.1) ++ [name] := by
  induction slots with
  | nil => rfl
  | cons slot rest ih =>
    obtain ⟨other, present⟩ := slot
    by_cases h : other = name
    · simp [extend, h]
    · rw [extend, if_neg h, List.map_cons, ih]
      by_cases hr : name ∈ rest.map (·.1) <;> simp_all [Ne.symm h]

theorem nodup_extend {slots : Slots} (h : (slots.map (·.1)).Nodup) (name : String)
    (listeners : List Listener) : ((extend name listeners slots).map (·.1)).Nodup := by
  rw [map_fst_extend]
  split
  · exact h
  next hname =>
    refine List.nodup_append.2 ⟨h, by simp, fun other ho last hl => ?_⟩
    rintro rfl
    exact hname (List.mem_singleton.1 hl ▸ ho)

theorem all_extend (name : String) (listeners : List Listener) (slots : Slots) :
    (extend name listeners slots).all.Perm (slots.all ++ listeners) := by
  induction slots with
  | nil => simp [extend, all]
  | cons slot rest ih =>
    obtain ⟨other, present⟩ := slot
    by_cases h : other = name
    · rw [extend, if_pos h, all_cons, all_cons, List.append_assoc, List.append_assoc]
      exact List.perm_append_comm.append_left present
    · rw [extend, if_neg h, all_cons, all_cons, List.append_assoc]
      exact ih.append_left present

/-! Registering a program adds its entries one by one; some of them may share a slot. -/

section Register

variable (normal : String → String) (entity : EntityId)

def addAll (slots : Slots) (entries : List (String × List Script)) : Slots :=
  entries.foldl (fun slots (name, scripts) =>
    extend (normal name) (scripts.map fun s => ⟨entity, s⟩) slots) slots

theorem nodup_addAll {slots : Slots} (h : (slots.map (·.1)).Nodup)
    (entries : List (String × List Script)) :
    ((addAll normal entity slots entries).map (·.1)).Nodup := by
  induction entries generalizing slots with
  | nil => exact h
  | cons entry rest ih => exact ih (nodup_extend h _ _)

theorem get_addAll (slots : Slots) (entries : List (String × List Script)) (name : String) :
    (addAll normal entity slots entries).get name = slots.get name ++
      ((entries.filter fun entry => normal entry.1 = name).flatMap (·.2)).map (⟨entity, ·⟩) := by
  induction entries generalizing slots with
  | nil => simp [addAll]
  | cons entry rest ih =>
    have hcons : addAll normal entity slots (entry :: rest) =
        addAll normal entity (extend (normal entry.1) (entry.2.map (⟨entity, ·⟩)) slots) rest := rfl
    rw [hcons, ih, get_extend]
    by_cases h : normal entry.1 = name <;> simp [h]

theorem all_addAll (slots : Slots) (entries : List (String × List Script)) :
    (addAll normal entity slots entries).all.Perm
      (slots.all ++ (entries.flatMap (·.2)).map (⟨entity, ·⟩)) := by
  induction entries generalizing slots with
  | nil => simp [addAll]
  | cons entry rest ih =>
    have hfirst := all_extend (normal entry.1) (entry.2.map (⟨entity, ·⟩)) slots
    rw [List.flatMap_cons, List.map_append, ← List.append_assoc]
    exact (ih _).trans (hfirst.append_right _)

end Register

/-- The slots hold what a part of the registered programs waits for, by the normal forms of the
names. -/
structure Serves (slots : Slots) (normal : String → String)
    (part : EntityProgram → Dict (List Script)) (r : Registry) : Prop where
  unique : (slots.map (·.1)).Nodup
  get : ∀ name, slots.get name = r.heard fun p => scriptsUnder normal (part p) name
  all : slots.all.Perm (r.heard fun p => (part p).values.flatten)

variable {slots : Slots} {normal : String → String} {part : EntityProgram → Dict (List Script)}
  {r : Registry}

theorem serves_nil : Serves [] normal part [] :=
  ⟨.nil, fun _ => rfl, .nil⟩

theorem Serves.clear (h : slots.Serves normal part r) (entity : EntityId) :
    (slots.clear entity).Serves normal part (r.clear entity) where
  unique := nodup_clear h.unique entity
  get name := by rw [get_clear h.unique, h.get, Registry.heard_clear]
  all := by
    rw [all_clear, Registry.heard_clear]
    exact h.all.filter _

theorem Serves.register (h : slots.Serves normal part r) (entity : EntityId) (p : EntityProgram) :
    (slots.register normal entity (part p)).Serves normal part (r ++ [(entity, p)]) where
  unique := nodup_addAll normal entity h.unique (part p).entries
  get name := by
    have hget := get_addAll normal entity slots (part p).entries name
    rw [Registry.heard_append, Registry.heard_single, ← h.get]
    exact hget
  all := by
    have hall := all_addAll normal entity slots (part p).entries
    rw [Registry.heard_append, Registry.heard_single, Dict.values, ← List.flatMap_def]
    exact hall.trans (h.all.append_right _)

end Slots

/-! ### The switchboard -/

namespace Switchboard

/-- The tables hold the scripts of the registered programs, and nothing else. -/
structure Serves (b : Switchboard) (r : Registry) : Prop where
  messages : b.messages.Serves Name.message (·.onMessage) r
  keys : b.keys.Serves Name.key (·.onKey) r
  clicks : ∀ entity, b.clickListeners entity = r.clicked entity
  clickSlots : b.clicks = (r.filterMap Registry.clickSlot).reverse

variable {b : Switchboard} {r : Registry}

theorem lookup_filter_self {α : Type} (entity : EntityId) (l : List (EntityId × α)) :
    (l.filter (·.1 != entity)).lookup entity = none := by
  refine List.lookup_eq_none_iff.2 fun entry he => ?_
  have hne : entry.1 ≠ entity := by simpa using (List.mem_filter.1 he).2
  exact bne_iff_ne.2 hne.symm

theorem Serves.clearEntity (h : b.Serves r) (entity : EntityId) :
    (b.clearEntity entity).Serves (r.clear entity) where
  messages := h.messages.clear entity
  keys := h.keys.clear entity
  clicks other := by
    have hclicks := h.clicks other
    unfold clickListeners Registry.clicked at hclicks ⊢
    simp only [Switchboard.clearEntity, Registry.clear]
    by_cases ho : other = entity
    · subst ho
      rw [lookup_filter_self, lookup_filter_self]
      rfl
    · rw [lookup_filter_ne ho, lookup_filter_ne ho]
      exact hclicks
  clickSlots := by
    rw [Registry.filterMap_clickSlot_clear, ← List.filter_reverse, ← h.clickSlots]
    rfl

theorem Serves.register (h : b.Serves r) (entity : EntityId) (p : EntityProgram) :
    (b.register entity p).Serves (r.clear entity ++ [(entity, p)]) where
  messages := (h.clearEntity entity).messages.register entity p
  keys := (h.clearEntity entity).keys.register entity p
  clicks other := by
    have hclicks := (h.clearEntity entity).clicks other
    unfold clickListeners Registry.clicked at hclicks ⊢
    simp only [Switchboard.register, List.lookup_append]
    by_cases ho : other = entity
    · subst ho
      have hgone : (b.clearEntity other).clicks.lookup other = none := lookup_filter_self other b.clicks
      rw [Registry.clear, lookup_filter_self]
      by_cases hp : p.onClick = []
      · simp [hp, hgone]
      · simp [hp]
    · have hne : (other == entity) = false := beq_false_of_ne ho
      by_cases hp : p.onClick = []
      · simpa [hp, hne, List.lookup_cons] using hclicks
      · simpa [hp, hne, List.lookup_cons] using hclicks
  clickSlots := by
    have hslots := (h.clearEntity entity).clickSlots
    rw [List.filterMap_append, List.reverse_append, ← hslots]
    by_cases hp : p.onClick = [] <;> simp [Switchboard.register, Registry.clickSlot, hp]

theorem Serves.keyListeners (h : b.Serves r) (key : String) :
    b.keyListeners key = (r.heard fun p => scriptsUnder Name.key p.onKey (Name.key key)) ++
      if Name.key key = anyKey then [] else r.heard fun p => scriptsUnder Name.key p.onKey anyKey := by
  unfold Switchboard.keyListeners
  split
  next hany => rw [if_pos hany, List.append_nil, h.keys.get]
  next hany => rw [if_neg hany, h.keys.get, h.keys.get]

/-! ### Histories of operations -/

inductive Operation where
  | register (entity : EntityId) (p : EntityProgram)
  | clearEntity (entity : EntityId)
  | clearListeners
  | record (r : MessageRecord)

namespace Operation

/-- Does the operation end an earlier registration of the entity? -/
def ends (entity : EntityId) : Operation → Bool
  | .register other _ => entity == other
  | .clearEntity other => entity == other
  | .clearListeners => true
  | .record _ => false

def registered : Operation → Registry
  | .register entity p => [(entity, p)]
  | _ => []

def recorded? : Operation → Option MessageRecord
  | .record r => some r
  | _ => none

end Operation

/-- The registrations that no later operation has ended, in their order. -/
def registry : List Operation → Registry
  | [] => []
  | op :: rest => op.registered.filter (fun entry => !rest.any (·.ends entry.1)) ++ registry rest

def perform (b : Switchboard) : Operation → Switchboard
  | .register entity p => b.register entity p
  | .clearEntity entity => b.clearEntity entity
  | .clearListeners => b.clearListeners
  | .record r => b.record r

def after (b : Switchboard) (ops : List Operation) : Switchboard :=
  ops.foldl perform b

theorem serves_empty (capacity : Nat) : (empty capacity).Serves [] :=
  ⟨Slots.serves_nil, Slots.serves_nil, fun _ => rfl, rfl⟩

theorem serves_clearListeners (b : Switchboard) : b.clearListeners.Serves [] :=
  ⟨Slots.serves_nil, Slots.serves_nil, fun _ => rfl, rfl⟩

theorem Serves.perform (h : b.Serves r) (op : Operation) :
    (b.perform op).Serves (r.filter (fun entry => !op.ends entry.1) ++ op.registered) := by
  cases op with
  | register entity p => exact h.register entity p
  | clearEntity entity =>
    have hclear := h.clearEntity entity
    rw [← List.append_nil (r.clear entity)] at hclear
    exact hclear
  | clearListeners =>
    have hnil : r.filter (fun entry => !Operation.clearListeners.ends entry.1) = [] := by
      simp [Operation.ends]
    rw [hnil]
    exact serves_clearListeners b
  | record record =>
    have hall : r.filter (fun entry => !(Operation.record record).ends entry.1) ++
        (Operation.record record).registered = r := by
      simp [Operation.ends, Operation.registered]
    rw [hall]
    exact ⟨h.messages, h.keys, h.clicks, h.clickSlots⟩

theorem Serves.after (h : b.Serves r) (ops : List Operation) :
    (b.after ops).Serves (r.filter (fun entry => !ops.any (·.ends entry.1)) ++ registry ops) := by
  induction ops generalizing b r with
  | nil =>
    have hall : r.filter (fun entry => !([] : List Operation).any (·.ends entry.1)) ++ registry [] = r := by
      simp [registry]
    rw [hall]
    exact h
  | cons op rest ih =>
    have hrest := ih (h.perform op)
    have hsplit : (r.filter fun entry => !op.ends entry.1).filter
        (fun entry => !rest.any (·.ends entry.1)) =
        r.filter fun entry => !(op :: rest).any (·.ends entry.1) := by
      rw [List.filter_filter]
      refine List.filter_congr fun entry _ => ?_
      rw [List.any_cons, Bool.not_or, Bool.and_comm]
    rw [List.filter_append, hsplit, List.append_assoc] at hrest
    exact hrest

theorem ends_of_mem_registry {ops : List Operation} {entry : EntityId × EntityProgram}
    (h : entry ∈ registry ops) : ops.any (·.ends entry.1) = true := by
  induction ops with
  | nil => cases h
  | cons op rest ih =>
    rw [List.any_cons, Bool.or_eq_true]
    rcases List.mem_append.1 h with h | h
    · have hop := (List.mem_filter.1 h).1
      cases op with
      | register entity p =>
        cases List.mem_singleton.1 hop
        exact .inl (beq_self_eq_true entity)
      | _ => cases hop
    · exact .inr (ih h)

/-- The registrations of an entity end each other, so at most one of them is left. -/
theorem nodup_registry (ops : List Operation) : ((registry ops).map (·.1)).Nodup := by
  induction ops with
  | nil => exact .nil
  | cons op rest ih =>
    cases op with
    | register entity p =>
      have hcons : registry (.register entity p :: rest) =
          if rest.any (·.ends entity) then registry rest else (entity, p) :: registry rest := by
        by_cases hends : rest.any (·.ends entity) = true <;>
          simp [registry, Operation.registered, hends]
      rw [hcons]
      split
      · exact ih
      next hends =>
        refine List.nodup_cons.2 ⟨fun hmem => hends ?_, ih⟩
        obtain ⟨entry, hentry, rfl⟩ := List.mem_map.1 hmem
        exact ends_of_mem_registry hentry
    | _ => exact ih

theorem registry_map_register {ps : Registry} (h : (ps.map (·.1)).Nodup) :
    registry (ps.map fun entry => .register entry.1 entry.2) = ps := by
  induction ps with
  | nil => rfl
  | cons entry rest ih =>
    obtain ⟨hentry, hrest⟩ := List.nodup_cons.1 h
    have hkept : (rest.map fun entry => Operation.register entry.1 entry.2).any (·.ends entry.1) =
        false := by
      refine List.any_eq_false.2 fun op hop hends => hentry ?_
      obtain ⟨other, hother, rfl⟩ := List.mem_map.1 hop
      have hsame : entry.1 = other.1 := beq_iff_eq.1 hends
      exact List.mem_map.2 ⟨other, hother, hsame.symm⟩
    have hself : (Operation.register entry.1 entry.2).registered.filter
        (fun entry => !(rest.map fun entry => Operation.register entry.1 entry.2).any
          (·.ends entry.1)) = [entry] := by
      rw [Operation.registered, List.filter_cons_of_pos, List.filter_nil]
      rw [hkept]
      rfl
    rw [List.map_cons, registry, ih hrest, hself]
    rfl

/-! ### The history -/

theorem history_record_suffix (b : Switchboard) (r : MessageRecord) :
    (b.record r).history <:+ b.history ++ [r] :=
  List.drop_suffix _ _

theorem length_history_record (b : Switchboard) (r : MessageRecord) :
    (b.record r).history.length = min b.capacity (b.history.length + 1) := by
  simp only [record, List.length_drop, List.length_append, List.length_cons, List.length_nil]
  omega

/-- The newest of the records so far, as many as there is room for. -/
def Remembers (b : Switchboard) (records : List MessageRecord) : Prop :=
  b.history <:+ records ∧ b.history.length = min b.capacity records.length

theorem Remembers.record {records : List MessageRecord} (h : b.Remembers records)
    (r : MessageRecord) : (b.record r).Remembers (records ++ [r]) := by
  obtain ⟨⟨older, rfl⟩, hlength⟩ := h
  refine ⟨?_, ?_⟩
  · rw [List.append_assoc]
    exact (history_record_suffix b r).trans (List.suffix_append older _)
  · have hcapacity : (b.record r).capacity = b.capacity := rfl
    rw [length_history_record, hcapacity, hlength]
    simp only [List.length_append, List.length_singleton]
    omega

theorem Remembers.after {records : List MessageRecord} (h : b.Remembers records)
    (ops : List Operation) :
    (b.after ops).Remembers (records ++ ops.filterMap Operation.recorded?) := by
  induction ops generalizing b records with
  | nil =>
    rw [List.filterMap_nil, List.append_nil]
    exact h
  | cons op rest ih =>
    cases op with
    | record r =>
      have hrest := ih (h.record r)
      rw [List.append_assoc] at hrest
      exact hrest
    | register entity p => exact ih (b := b.register entity p) h
    | clearEntity entity => exact ih (b := b.clearEntity entity) h
    | clearListeners => exact ih (b := b.clearListeners) h

theorem capacity_after (b : Switchboard) (ops : List Operation) :
    (b.after ops).capacity = b.capacity := by
  induction ops generalizing b with
  | nil => rfl
  | cons op rest ih =>
    have hop : (b.perform op).capacity = b.capacity := by cases op <;> rfl
    exact (ih (b.perform op)).trans hop

/-! ### The theorem -/

/-- Whatever is done to a switchboard, who listens follows from the registrations that are left, and
its history from the records. -/
theorem listeners_follow_registry (capacity : Nat) (ops : List Operation) :
    let b := (empty capacity).after ops
    let r := registry ops
    (r.map (·.1)).Nodup ∧
    (∀ name, b.messageListeners name =
      r.heard fun p => scriptsUnder Name.message p.onMessage (Name.message name)) ∧
    (∀ key, b.keyListeners key =
      (r.heard fun p => scriptsUnder Name.key p.onKey (Name.key key)) ++
        if Name.key key = anyKey then [] else r.heard fun p => scriptsUnder Name.key p.onKey anyKey) ∧
    (∀ entity, b.clickListeners entity = r.clicked entity) ∧
    b.history <:+ ops.filterMap Operation.recorded? ∧
    b.history.length = min capacity (ops.filterMap Operation.recorded?).length := by
  intro b r
  have hserves : b.Serves r := (serves_empty capacity).after ops
  have hempty : (empty capacity).Remembers [] := ⟨List.nil_suffix, (Nat.min_zero _).symm⟩
  have hhistory : b.Remembers (ops.filterMap Operation.recorded?) := hempty.after ops
  rw [Remembers, capacity_after] at hhistory
  exact ⟨nodup_registry ops, fun name => hserves.messages.get _, hserves.keyListeners,
    hserves.clicks, hhistory⟩

end Switchboard

end SpriteStage
