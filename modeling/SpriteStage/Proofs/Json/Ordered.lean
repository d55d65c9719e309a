import SpriteStage.Json.Reader
import SpriteStage.Proofs.Json.Record

/-!
JSON values as maps.

A value is ordered if every object in it, at any depth, has its fields in ascending order and each
name once. What the reader gives is ordered (`ordered_parse?`), whatever the order of the text and
however often it repeats a name.
-/

namespace SpriteStage

theorem Dict.mem_of_mem_ofList {α : Type} {l : List (String × α)} {p : String × α}
    (h : p ∈ (ofList l).entries) : p ∈ l := by
  have hfold : ∀ d : Dict α, p ∈ (l.foldl (fun d p => d.insert p.1 p.2) d).entries →
      p ∈ d.entries ∨ p ∈ l := by
    clear h
    induction l with
    | nil => exact fun d => .inl
    | cons first rest ih =>
      intro d h
      rcases ih _ h with hd | hrest
      · exact (mem_insertIn hd).elim (fun heq => .inr (heq ▸ List.mem_cons_self)) .inl
      · exact .inr (List.mem_cons_of_mem first hrest)
  exact (hfold .empty h).resolve_left nofun

namespace Json

/-- Every object inside has its fields in strictly ascending order. -/
inductive Ordered : Json → Prop
  | null : Ordered .null
  | bool (b : Bool) : Ordered (.bool b)
  | int (n : Int) : Ordered (.int n)
  | float (x : Float) : Ordered (.float x)
  | str (s : String) : Ordered (.str s)
  | arr {items : List Json} (each : ∀ j ∈ items, Ordered j) : Ordered (.arr items)
  | obj {fields : List (String × Json)} (sorted : fields.Pairwise fun a b => a.1 < b.1)
      (each : ∀ p ∈ fields, Ordered p.2) : Ordered (.obj fields)

namespace Ordered

variable {j : Json} {fields : List (String × Json)}

theorem sorted (h : (Json.obj fields).Ordered) : fields.Pairwise fun a b => a.1 < b.1 := by
  cases h with
  | obj sorted _ => exact sorted

theorem of_mem (h : (Json.obj fields).Ordered) {name : String} (hj : (name, j) ∈ fields) :
    j.Ordered := by
  cases h with
  | obj _ each => exact each _ hj

theorem of_field? {name : String} {value : Json} (h : j.Ordered)
    (hvalue : j.field? name = some value) : value.Ordered := by
  cases h with
  | obj _ each => exact each _ (Dict.mem_of_lookupIn hvalue)
  | _ => cases hvalue

theorem sorted_members (h : j.Ordered) (name : String) :
    (((j.field? name).bind Json.obj?).getD []).Pairwise fun a b => a.1 < b.1 := by
  cases hfield : j.field? name with
  | none => exact .nil
  | some value =>
    cases h.of_field? hfield with
    | obj sorted _ => exact sorted
    | _ => exact .nil

end Ordered

theorem lookupIn_members (j : Json) (name key : String) :
    Dict.lookupIn key (((j.field? name).bind Json.obj?).getD []) =
      (j.field? name).bind (Json.field? key) := by
  cases j.field? name with
  | none => rfl
  | some value => cases value <;> rfl

/-! ### What is read -/

theorem ordered_decimal {x : Option Float} {tail rest : List Char} {j : Json}
    (h : (x.map Json.float).map (·, tail) = some (j, rest)) : j.Ordered := by
  rw [Option.map_map] at h
  obtain ⟨y, -, heq⟩ := Option.map_eq_some_iff.1 h
  cases heq
  exact .float y

theorem ordered_wholeNumber {negative : Bool} {digits tail rest : List Char} {j : Json}
    (h : (wholeNumber negative digits).map (·, tail) = some (j, rest)) : j.Ordered := by
  simp only [wholeNumber] at h
  split at h
  · cases h
    exact .float _
  · split at h
    · cases h
      exact .int _
    · exact ordered_decimal h

theorem ordered_readFraction {negative : Bool} {whole cs rest : List Char} {j : Json}
    (h : readFraction negative whole cs = some (j, rest)) : j.Ordered := by
  simp only [readFraction] at h
  split at h
  · split at h
    · cases h
    · split at h
      · split at h
        · obtain ⟨power, -, hpower⟩ := Option.bind_eq_some_iff.1 h
          exact ordered_decimal hpower
        · exact ordered_decimal h
      · exact ordered_decimal h
  · split at h
    · obtain ⟨power, -, hpower⟩ := Option.bind_eq_some_iff.1 h
      exact ordered_decimal hpower
    · exact ordered_wholeNumber h
  · exact ordered_wholeNumber h

theorem ordered_readNumber {cs rest : List Char} {j : Json} (h : readNumber cs = some (j, rest)) :
    j.Ordered := by
  simp only [readNumber] at h
  split at h
  · split at h
    · split at h
      · cases h
      · exact ordered_readFraction h
    · exact ordered_readFraction h
  · split at h
    all_goals
      split at h
      · cases h
      · exact ordered_readFraction h

/-- All that is read within so many steps is ordered. -/
structure ReadsOrdered (fuel : Nat) : Prop where
  value : ∀ {depth cs j rest}, readValue fuel depth cs = some (j, rest) → j.Ordered
  items : ∀ {depth cs items rest}, readItems fuel depth cs = some (items, rest) →
    ∀ j ∈ items, j.Ordered
  fields : ∀ {depth cs fields rest}, readFields fuel depth cs = some (fields, rest) →
    ∀ p ∈ fields, p.2.Ordered

namespace ReadsOrdered

variable {fuel depth : Nat} {cs rest : List Char}

theorem value_succ (ih : ReadsOrdered fuel) {j : Json}
    (h : readValue (fuel + 1) depth cs = some (j, rest)) : j.Ordered := by
  rw [readValue] at h
  split at h
  · cases h
    exact .null
  · cases h
    exact .bool true
  · cases h
    exact .bool false
  · obtain ⟨s, -, heq⟩ := Option.map_eq_some_iff.1 h
    cases heq
    exact .str s.1
  · split at h
    · cases h
    · split at h
      · cases h
        exact .arr nofun
      · obtain ⟨items, hread, heq⟩ := Option.map_eq_some_iff.1 h
        cases heq
        exact .arr (ih.items hread)
  · split at h
    · cases h
    · split at h
      · cases h
        exact .obj .nil nofun
      · obtain ⟨fields, hread, heq⟩ := Option.map_eq_some_iff.1 h
        cases heq
        refine .obj (Dict.ofList fields.1).sorted fun p hp => ?_
        exact ih.fields hread p (Dict.mem_of_mem_ofList hp)
  · exact ordered_readNumber h

theorem items_succ (ih : ReadsOrdered fuel) {items : List Json}
    (h : readItems (fuel + 1) depth cs = some (items, rest)) : ∀ j ∈ items, j.Ordered := by
  rw [readItems] at h
  obtain ⟨⟨item, _⟩, hread, hrest⟩ := Option.bind_eq_some_iff.1 h
  have hitem := ih.value hread
  dsimp only at hrest
  split at hrest
  · obtain ⟨more, hmore, heq⟩ := Option.map_eq_some_iff.1 hrest
    cases heq
    exact List.forall_mem_cons.2 ⟨hitem, ih.items hmore⟩
  · cases hrest
    exact List.forall_mem_singleton.2 hitem
  · cases hrest

theorem fields_succ (ih : ReadsOrdered fuel) {fields : List (String × Json)}
    (h : readFields (fuel + 1) depth cs = some (fields, rest)) : ∀ p ∈ fields, p.2.Ordered := by
  rw [readFields] at h
  split at h
  · obtain ⟨⟨name, _⟩, -, hname⟩ := Option.bind_eq_some_iff.1 h
    dsimp only at hname
    split at hname
    · obtain ⟨⟨value, _⟩, hread, hrest⟩ := Option.bind_eq_some_iff.1 hname
      have hfield := ih.value hread
      dsimp only at hrest
      split at hrest
      · obtain ⟨more, hmore, heq⟩ := Option.map_eq_some_iff.1 hrest
        cases heq
        exact List.forall_mem_cons.2 ⟨hfield, ih.fields hmore⟩
      · cases hrest
        exact List.forall_mem_singleton.2 hfield
      · cases hrest
    · cases hname
  · cases h

end ReadsOrdered

theorem readsOrdered (fuel : Nat) : ReadsOrdered fuel := by
  induction fuel with
  | zero => constructor <;> simp [readValue, readItems, readFields]
  | succ fuel ih => exact ⟨ih.value_succ, ih.items_succ, ih.fields_succ⟩

theorem ordered_parse? {s : String} {depth : Nat} {j : Json} (h : parse? s depth = some j) :
    j.Ordered := by
  simp only [parse?] at h
  split at h
  next value rest hread =>
    split at h
    · cases h
      exact (readsOrdered _).value hread
    · cases h
  · cases h

end Json

end SpriteStage
