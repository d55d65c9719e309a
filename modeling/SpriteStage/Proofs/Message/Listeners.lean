import SpriteStage.Message.Switchboard

/-!
Who listens. Registering the scripts of an entity brings no listener of another one, and whoever a
message reaches has been registered.
-/

namespace SpriteStage

theorem lookup_filter_ne {α : Type} {id other : EntityId} (h : other ≠ id)
    (l : List (EntityId × α)) : (l.filter (·.1 != id)).lookup other = l.lookup other := by
  induction l with
  | nil => rfl
  | cons p l ih =>
    obtain ⟨key, a⟩ := p
    by_cases hk : key = id
    · have hne : (other == key) = false := beq_false_of_ne (hk ▸ h)
      simp [List.lookup_cons, hk ▸ hne, hk, ih]
    · simp [List.lookup_cons, hk, ih]

namespace Slots

def all (slots : Slots) : List Listener :=
  slots.flatMap (·.2)

theorem mem_all {slots : Slots} {l : Listener} : l ∈ slots.all ↔ ∃ slot ∈ slots, l ∈ slot.2 :=
  List.mem_flatMap

theorem all_cons (slot : String × List Listener) (slots : Slots) :
    all (slot :: slots) = slot.2 ++ all slots :=
  List.flatMap_cons

theorem mem_all_of_mem_get {slots : Slots} {name : String} {l : Listener} (h : l ∈ slots.get name) :
    l ∈ slots.all := by
  induction slots with
  | nil => cases h
  | cons slot rest ih =>
    obtain ⟨other, present⟩ := slot
    rw [all_cons, List.mem_append]
    by_cases ho : other = name
    · rw [get, if_pos ho] at h
      exact .inl h
    · rw [get, if_neg ho] at h
      exact .inr (ih h)

theorem mem_all_extend {name : String} {listeners : List Listener} {slots : Slots} {l : Listener}
    (h : l ∈ (extend name listeners slots).all) : l ∈ slots.all ∨ l ∈ listeners := by
  induction slots with
  | nil => exact .inr (by simpa [extend, all] using h)
  | cons slot rest ih =>
    obtain ⟨other, present⟩ := slot
    rw [all_cons, List.mem_append]
    by_cases ho : other = name
    · rw [extend, if_pos ho, all_cons, List.mem_append, List.mem_append] at h
      rcases h with (h | h) | h
      · exact .inl (.inl h)
      · exact .inr h
      · exact .inl (.inr h)
    · rw [extend, if_neg ho, all_cons, List.mem_append] at h
      rcases h with h | h
      · exact .inl (.inl h)
      · exact (ih h).imp_left .inr

theorem mem_all_of_mem_clear {slots : Slots} {entity : EntityId} {l : Listener}
    (h : l ∈ (slots.clear entity).all) : l ∈ slots.all := by
  obtain ⟨slot, hslot, hl⟩ := mem_all.1 h
  obtain ⟨before, hbefore, rfl⟩ := List.mem_map.1 (List.mem_filter.1 hslot).1
  exact mem_all.2 ⟨before, hbefore, (List.mem_filter.1 hl).1⟩

theorem mem_all_register {slots : Slots} {normal : String → String} {entity : EntityId}
    {scripts : Dict (List Script)} {l : Listener}
    (h : l ∈ (slots.register normal entity scripts).all) : l ∈ slots.all ∨ l.entity = entity := by
  unfold register at h
  generalize scripts.entries = entries at h
  induction entries generalizing slots with
  | nil => exact .inl h
  | cons entry rest ih =>
    rcases ih h with h | h
    · refine (mem_all_extend h).imp_right fun hl => ?_
      obtain ⟨script, -, rfl⟩ := List.mem_map.1 hl
      rfl
    · exact .inr h

end Slots

namespace Switchboard

def listeners (b : Switchboard) : List Listener :=
  b.messages.all ++ b.keys.all ++ b.clicks.flatMap (·.2)

variable {b : Switchboard} {l : Listener}

theorem mem_listeners :
    l ∈ b.listeners ↔ l ∈ b.messages.all ∨ l ∈ b.keys.all ∨ l ∈ b.clicks.flatMap (·.2) := by
  rw [listeners, List.mem_append, List.mem_append, or_assoc]

theorem mem_listeners_register {entity : EntityId} {p : EntityProgram}
    (h : l ∈ (b.register entity p).listeners) : l ∈ b.listeners ∨ l.entity = entity := by
  rw [mem_listeners]
  have hclear : l ∈ (b.clicks.filter (·.1 != entity)).flatMap (·.2) → l ∈ b.clicks.flatMap (·.2) := by
    intro h
    obtain ⟨click, hclick, hl⟩ := List.mem_flatMap.1 h
    exact List.mem_flatMap.2 ⟨click, (List.mem_filter.1 hclick).1, hl⟩
  rcases mem_listeners.1 h with h | h | h
  · exact (Slots.mem_all_register h).imp_left fun h => .inl (Slots.mem_all_of_mem_clear h)
  · exact (Slots.mem_all_register h).imp_left fun h => .inr (.inl (Slots.mem_all_of_mem_clear h))
  · simp only [register] at h
    split at h
    · exact .inl (.inr (.inr (hclear h)))
    · rcases List.mem_append.1 h with h | h
      · obtain ⟨script, -, rfl⟩ := List.mem_map.1 h
        exact .inr rfl
      · exact .inl (.inr (.inr (hclear h)))

theorem mem_listeners_of_message {name : String} (h : l ∈ b.messageListeners name) :
    l ∈ b.listeners :=
  mem_listeners.2 (.inl (Slots.mem_all_of_mem_get h))

end Switchboard

end SpriteStage
