import Mathlib

/-!
Lists of computations that may fail: `List.mapM` gives the results of all of them, or the failure of
the first that fails.
-/

namespace SpriteStage

variable {α β ε : Type} {f : α → Except ε β} {l : List α}

theorem mapM_eq_ok_iff {bs : List β} :
    l.mapM f = .ok bs ↔ List.Forall₂ (fun a b => f a = .ok b) l bs := by
  induction l generalizing bs with
  | nil =>
    rw [List.mapM_nil, List.forall₂_nil_left_iff]
    exact ⟨fun h => by cases h; rfl, fun h => h ▸ rfl⟩
  | cons a rest ih =>
    rw [List.mapM_cons]
    constructor
    · intro h
      cases ha : f a with
      | error e => rw [ha] at h; cases h
      | ok b =>
        cases hrest : rest.mapM f with
        | error e => rw [ha, hrest] at h; cases h
        | ok cs =>
          rw [ha, hrest] at h
          cases h
          exact .cons ha (ih.1 hrest)
    · rintro (_ | ⟨ha, hrest⟩)
      rw [ha, ih.2 hrest]
      rfl

/-- The failure is that of the first item that fails. -/
theorem mapM_eq_error_iff {e : ε} :
    l.mapM f = .error e ↔ ∃ before a after, l = before ++ a :: after ∧
      (∀ b ∈ before, ∃ c, f b = .ok c) ∧ f a = .error e := by
  induction l with
  | nil =>
    constructor
    · intro h
      cases h
    · rintro ⟨before, a, after, hl, -⟩
      simp at hl
  | cons a rest ih =>
    rw [List.mapM_cons]
    constructor
    · intro h
      cases ha : f a with
      | error e' =>
        rw [ha] at h
        cases h
        exact ⟨[], a, rest, rfl, by simp, ha⟩
      | ok c =>
        cases hrest : rest.mapM f with
        | ok cs => rw [ha, hrest] at h; cases h
        | error e' =>
          rw [ha, hrest] at h
          cases h
          obtain ⟨before, b, after, rfl, hbefore, hb⟩ := ih.1 hrest
          refine ⟨a :: before, b, after, rfl, ?_, hb⟩
          exact List.forall_mem_cons.2 ⟨⟨c, ha⟩, hbefore⟩
    · rintro ⟨before, b, after, hl, hbefore, hb⟩
      cases before with
      | nil =>
        cases hl
        rw [hb]
        rfl
      | cons _ before =>
        cases hl
        obtain ⟨⟨c, hc⟩, hbefore⟩ := List.forall_mem_cons.1 hbefore
        rw [hc, ih.2 ⟨before, b, after, rfl, hbefore, hb⟩]
        rfl

theorem exists_mapM_iff : (∃ bs, l.mapM f = .ok bs) ↔ ∀ a ∈ l, ∃ b, f a = .ok b := by
  constructor
  · rintro ⟨bs, h⟩
    induction mapM_eq_ok_iff.1 h with
    | nil => simp
    | cons ha hrest ih => exact List.forall_mem_cons.2 ⟨⟨_, ha⟩, ih (mapM_eq_ok_iff.2 hrest)⟩
  · intro h
    cases hl : l.mapM f with
    | ok bs => exact ⟨bs, rfl⟩
    | error e =>
      obtain ⟨before, a, after, rfl, -, ha⟩ := mapM_eq_error_iff.1 hl
      obtain ⟨b, hb⟩ := h a (by simp)
      rw [ha] at hb
      cases hb

end SpriteStage
