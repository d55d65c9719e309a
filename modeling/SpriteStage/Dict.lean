/-!
Dictionaries with text keys.

The entries are kept in ascending order of their keys, each key once, so two dictionaries with the
same look-ups are equal (`Dict.ext_get?`) and a walk through the entries meets the keys in order.
-/

namespace SpriteStage

/-- Entries in strictly ascending order of their keys. -/
structure Dict (α : Type) where
  entries : List (String × α)
  sorted : entries.Pairwise (fun a b => a.1 < b.1)

namespace Dict

variable {α β : Type}

/-! ### Entries -/

def lookupIn (key : String) : List (String × α) → Option α
  | [] => none
  | (k, v) :: rest => if k = key then some v else lookupIn key rest

/-- The entries with a value put at a key, in its place in the order. -/
def insertIn (key : String) (value : α) : List (String × α) → List (String × α)
  | [] => [(key, value)]
  | (k, v) :: rest =>
    if key < k then (key, value) :: (k, v) :: rest
    else if key = k then (key, value) :: rest
    else (k, v) :: insertIn key value rest

theorem mem_insertIn {key : String} {value : α} {l : List (String × α)} {p : String × α}
    (h : p ∈ insertIn key value l) : p = (key, value) ∨ p ∈ l := by
  induction l with
  | nil => simpa [insertIn] using h
  | cons head rest ih =>
    rw [insertIn] at h
    split at h
    · simpa using h
    · split at h
      · rcases List.mem_cons.1 h with h | h
        · exact .inl h
        · exact .inr (List.mem_cons_of_mem _ h)
      · rcases List.mem_cons.1 h with h | h
        · exact .inr (h ▸ List.mem_cons_self)
        · rcases ih h with h | h
          · exact .inl h
          · exact .inr (List.mem_cons_of_mem _ h)

theorem sorted_insertIn {key : String} {value : α} {l : List (String × α)}
    (h : l.Pairwise (fun a b => a.1 < b.1)) :
    (insertIn key value l).Pairwise (fun a b => a.1 < b.1) := by
  induction l with
  | nil => simp [insertIn]
  | cons head rest ih =>
    have hrest := (List.pairwise_cons.1 h).2
    have hhead := (List.pairwise_cons.1 h).1
    rw [insertIn]
    split
    · next hlt =>
      refine List.pairwise_cons.2 ⟨fun p hp => ?_, h⟩
      rcases List.mem_cons.1 hp with rfl | hp
      · exact hlt
      · exact String.lt_trans hlt (hhead p hp)
    · next hnlt =>
      split
      · next heq =>
        refine List.pairwise_cons.2 ⟨fun p hp => ?_, hrest⟩
        simpa [heq] using hhead p hp
      · next hne =>
        have hgt : head.1 < key := by
          rcases String.le_total key head.1 with hle | hle
          · exact absurd (String.le_antisymm hle (String.not_lt.1 hnlt)) hne
          · exact String.not_le.1 fun hc => hne (String.le_antisymm hc hle)
        refine List.pairwise_cons.2 ⟨fun p hp => ?_, ih hrest⟩
        rcases mem_insertIn hp with rfl | hp
        · exact hgt
        · exact hhead p hp

theorem lookupIn_insertIn (key key' : String) (value : α) (l : List (String × α)) :
    lookupIn key' (insertIn key value l) = if key = key' then some value else lookupIn key' l := by
  induction l with
  | nil => simp [insertIn, lookupIn]
  | cons head rest ih =>
    obtain ⟨k, v⟩ := head
    rw [insertIn]
    split
    · rfl
    · split
      · next heq =>
        subst heq
        by_cases h : key = key' <;> simp [lookupIn, h]
      · next hne =>
        rw [lookupIn, ih, lookupIn]
        by_cases h : k = key'
        · have : key ≠ key' := fun hk => hne (hk.trans h.symm)
          simp [h, this]
        · simp [h]

/-- A key below all entries is not among them. -/
theorem lookupIn_eq_none {key : String} {l : List (String × α)}
    (h : ∀ p ∈ l, key < p.1) : lookupIn key l = none := by
  induction l with
  | nil => rfl
  | cons head rest ih =>
    have hne : head.1 ≠ key := fun heq => String.lt_irrefl key (heq ▸ h head List.mem_cons_self)
    simp [lookupIn, hne, ih fun p hp => h p (List.mem_cons_of_mem _ hp)]

theorem mem_of_lookupIn {key : String} {value : α} {l : List (String × α)}
    (h : lookupIn key l = some value) : (key, value) ∈ l := by
  induction l with
  | nil => cases h
  | cons head rest ih =>
    obtain ⟨k, v⟩ := head
    rw [lookupIn] at h
    split at h
    · next heq =>
      cases h
      rw [heq]
      exact List.mem_cons_self
    · exact List.mem_cons_of_mem _ (ih h)

theorem lookupIn_of_mem {key : String} {value : α} {l : List (String × α)}
    (hl : l.Pairwise (fun a b => a.1 < b.1)) (h : (key, value) ∈ l) :
    lookupIn key l = some value := by
  induction l with
  | nil => cases h
  | cons head rest ih =>
    have ⟨hhead, hrest⟩ := List.pairwise_cons.1 hl
    rcases List.mem_cons.1 h with rfl | h
    · rw [lookupIn, if_pos rfl]
    · have hlt : head.1 < key := hhead (key, value) h
      have hne : head.1 ≠ key := fun heq => String.lt_irrefl key (heq ▸ hlt)
      rw [lookupIn, if_neg hne, ih hrest h]

/-! ### Dictionaries -/

def empty : Dict α :=
  ⟨[], .nil⟩

instance : Inhabited (Dict α) := ⟨empty⟩

def get? (d : Dict α) (key : String) : Option α :=
  lookupIn key d.entries

def contains (d : Dict α) (key : String) : Bool :=
  (d.get? key).isSome

def insert (d : Dict α) (key : String) (value : α) : Dict α :=
  ⟨insertIn key value d.entries, sorted_insertIn d.sorted⟩

def keys (d : Dict α) : List String :=
  d.entries.map (·.1)

/-- The values in the order of their keys. -/
def values (d : Dict α) : List α :=
  d.entries.map (·.2)

def size (d : Dict α) : Nat :=
  d.entries.length

/-- The dictionary of a list of entries; of several with one key the last counts. -/
def ofList (l : List (String × α)) : Dict α :=
  l.foldl (fun d p => d.insert p.1 p.2) empty

def map (f : α → β) (d : Dict α) : Dict β :=
  ⟨d.entries.map fun p => (p.1, f p.2), List.pairwise_map.2 d.sorted⟩

theorem get?_eq_some_iff {d : Dict α} {key : String} {value : α} :
    d.get? key = some value ↔ (key, value) ∈ d.entries :=
  ⟨mem_of_lookupIn, lookupIn_of_mem d.sorted⟩

@[simp] theorem get?_empty (key : String) : (empty : Dict α).get? key = none := rfl

theorem get?_insert (d : Dict α) (key key' : String) (value : α) :
    (d.insert key value).get? key' = if key = key' then some value else d.get? key' :=
  lookupIn_insertIn key key' value d.entries

@[simp] theorem get?_insert_self (d : Dict α) (key : String) (value : α) :
    (d.insert key value).get? key = some value := by
  simp [get?_insert]

theorem get?_insert_of_ne (d : Dict α) {key key' : String} (value : α) (h : key ≠ key') :
    (d.insert key value).get? key' = d.get? key' := by
  simp [get?_insert, h]

theorem entries_eq_of_lookupIn {l m : List (String × α)}
    (hl : l.Pairwise (fun a b => a.1 < b.1)) (hm : m.Pairwise (fun a b => a.1 < b.1))
    (h : ∀ key, lookupIn key l = lookupIn key m) : l = m := by
  induction l generalizing m with
  | nil =>
    cases m with
    | nil => rfl
    | cons p m => simpa [lookupIn] using h p.1
  | cons p l ih =>
    cases m with
    | nil => simpa [lookupIn] using h p.1
    | cons q m =>
      have ⟨hp, hl⟩ := List.pairwise_cons.1 hl
      have ⟨hq, hm⟩ := List.pairwise_cons.1 hm
      have hkey : p.1 = q.1 := by
        rcases Classical.em (p.1 < q.1) with hlt | hnlt
        · have h1 := h p.1
          have hne : q.1 ≠ p.1 := fun he => String.lt_irrefl p.1 (he ▸ hlt)
          have hnone : lookupIn p.1 m = none :=
            lookupIn_eq_none fun r hr => String.lt_trans hlt (hq r hr)
          simp [lookupIn, hne, hnone] at h1
        · rcases Classical.em (q.1 < p.1) with hgt | hngt
          · have h1 := h q.1
            have hne : p.1 ≠ q.1 := fun he => String.lt_irrefl q.1 (he ▸ hgt)
            have hnone : lookupIn q.1 l = none :=
              lookupIn_eq_none fun r hr => String.lt_trans hgt (hp r hr)
            simp [lookupIn, hne, hnone] at h1
          · exact String.le_antisymm (String.not_lt.1 hngt) (String.not_lt.1 hnlt)
      have hval : p.2 = q.2 := by simpa [lookupIn, hkey] using h p.1
      have hrest : l = m := by
        refine ih hl hm fun key => ?_
        have h1 := h key
        by_cases he : p.1 = key
        · have hn1 : lookupIn key l = none := lookupIn_eq_none fun r hr => he ▸ hp r hr
          have hn2 : lookupIn key m = none :=
            lookupIn_eq_none fun r hr => by rw [← he, hkey]; exact hq r hr
          rw [hn1, hn2]
        · have he' : q.1 ≠ key := hkey ▸ he
          simpa [lookupIn, he, he'] using h1
      rw [hrest, Prod.ext hkey hval]

/-- Dictionaries with the same look-ups are equal. -/
theorem ext_get? {d e : Dict α} (h : ∀ key, d.get? key = e.get? key) : d = e := by
  obtain ⟨l, hl⟩ := d
  obtain ⟨m, hm⟩ := e
  congr
  exact entries_eq_of_lookupIn hl hm h

instance [DecidableEq α] : DecidableEq (Dict α) := fun d e =>
  if h : d.entries = e.entries then
    isTrue (by cases d; cases e; congr)
  else isFalse fun he => h (he ▸ rfl)

end Dict

end SpriteStage
