import Mathlib
import SpriteStage.Proofs.Stage.Geometry

/-!
Gliding from point to point.

In exact arithmetic the points of a glide lie on the straight way from where the box is to where it
may go (`between`), and they go forwards as time does. The last of them is the end of the way.
-/

open Float.Model

namespace SpriteStage.Stage

open Number

section

variable {α : Type} [Add α] [Sub α] [Mul α] [Div α] [LT α] [LE α] [DecidableLT α] [DecidableLE α]
  [(n : Nat) → OfNat α n]

/-- The shares of a way up to the first with which it is over. -/
def arriving : List α → List α
  | [] => []
  | share :: rest => share :: if 1 ≤ share then [] else arriving rest

/-- The points at which a box shows up that glides for some seconds, if its turns come after
`elapsed` seconds. A glide that takes no time is over at once. -/
def Glide.emitted (way : Glide α) (secs : α) (elapsed : List α) : List (Point α) :=
  if 0 < secs then (arriving (elapsed.map (· / secs))).map way.point else [way.point 1]

end

/-! ### The way is over -/

section

variable {α : Type} [LE α] [DecidableLE α] [(n : Nat) → OfNat α n]

theorem arriving_sublist (shares : List α) : (arriving shares).Sublist shares := by
  induction shares with
  | nil => exact .slnil
  | cons share rest ih =>
    rw [arriving]
    split
    · exact (List.nil_sublist rest).cons_cons share
    · exact ih.cons_cons share

theorem getLast?_arriving {shares : List α} (h : ∃ share ∈ shares, 1 ≤ share) :
    ∃ share, (arriving shares).getLast? = some share ∧ 1 ≤ share := by
  induction shares with
  | nil => simp at h
  | cons first rest ih =>
    rw [arriving]
    split
    next hfirst => exact ⟨first, rfl, hfirst⟩
    next hfirst =>
      obtain ⟨share, hmem, hshare⟩ := h
      have hrest : share ∈ rest := by
        rcases List.mem_cons.1 hmem with rfl | hrest
        · exact absurd hshare hfirst
        · exact hrest
      obtain ⟨last, hlast, hone⟩ := ih ⟨share, hrest, hshare⟩
      refine ⟨last, ?_, hone⟩
      rw [List.getLast?_cons, hlast]
      rfl

end

/-! ### Exact arithmetic -/

def between (a b : Point ℚ) (share : ℚ) : Point ℚ :=
  ⟨a.x + share * (b.x - a.x), a.y + share * (b.y - a.y)⟩

/-- The points lie on the segment between two points, and each at least as far on as the one
before it. -/
def Along (a b : Point ℚ) (points : List (Point ℚ)) : Prop :=
  ∃ shares : List ℚ, shares.Pairwise (· ≤ ·) ∧ (∀ share ∈ shares, 0 ≤ share ∧ share ≤ 1) ∧
    points = shares.map (between a b)

theorem between_one (a b : Point ℚ) : between a b 1 = b := by
  simp [between]

theorem clamp_unit (share : ℚ) : 0 ≤ clamp 0 1 share ∧ clamp 0 1 share ≤ 1 := by
  rw [clamp_eq]
  exact ⟨le_min zero_le_one (le_max_left _ _), min_le_left _ _⟩

theorem clamp_unit_of_one_le {share : ℚ} (h : 1 ≤ share) : clamp 0 1 share = 1 := by
  rw [clamp_eq]
  exact min_eq_left (h.trans (le_max_right 0 share))

theorem clamp_unit_mono {share later : ℚ} (h : share ≤ later) :
    clamp 0 1 share ≤ clamp 0 1 later := by
  rw [clamp_eq, clamp_eq]
  exact min_le_min_left 1 (max_le_max_left 0 h)

theorem point_plan (center target : Point ℚ) (half : HalfSize ℚ) (share : ℚ) :
    (Glide.plan center half target).point share =
      between center (target.clamp half) (clamp 0 1 share) := by
  have hmost := (clamp_unit share).2
  simp only [Glide.plan, Glide.point, between, Point.toCanvas, CanvasPoint.toStage]
  split
  next h =>
    rw [le_antisymm hmost h]
    ring_nf
  next => ring_nf

section

variable (center target : Point ℚ) (half : HalfSize ℚ) (secs : ℚ)

theorem along_emitted {elapsed : List ℚ} (h : elapsed.Pairwise (· ≤ ·)) :
    Along center (target.clamp half) ((Glide.plan center half target).emitted secs elapsed) := by
  unfold Glide.emitted
  split
  next hsecs =>
    have hshares : (elapsed.map (· / secs)).Pairwise (· ≤ ·) :=
      h.map _ fun _ _ hle => div_le_div_of_nonneg_right hle hsecs.le
    have harriving := hshares.sublist (arriving_sublist _)
    refine ⟨(arriving (elapsed.map (· / secs))).map (clamp 0 1), ?_, ?_, ?_⟩
    · exact harriving.map _ fun _ _ => clamp_unit_mono
    · intro share hshare
      obtain ⟨raw, -, rfl⟩ := List.mem_map.1 hshare
      exact clamp_unit raw
    · rw [List.map_map]
      exact List.map_congr_left fun share _ => point_plan center target half share
  next =>
    refine ⟨[1], List.pairwise_singleton _ _, by simp, ?_⟩
    rw [List.map_singleton, point_plan, clamp_unit_of_one_le le_rfl]

theorem getLast?_emitted {elapsed : List ℚ} (h : 0 < secs → ∃ time ∈ elapsed, secs ≤ time) :
    ((Glide.plan center half target).emitted secs elapsed).getLast? = some (target.clamp half) := by
  have hpoint : ∀ {share : ℚ}, 1 ≤ share →
      (Glide.plan center half target).point share = target.clamp half := by
    intro share hshare
    rw [point_plan, clamp_unit_of_one_le hshare, between_one]
  unfold Glide.emitted
  split
  next hsecs =>
    obtain ⟨time, htime, hle⟩ := h hsecs
    have hover : ∃ share ∈ elapsed.map (· / secs), 1 ≤ share :=
      ⟨time / secs, List.mem_map_of_mem htime, (one_le_div hsecs).2 hle⟩
    obtain ⟨last, hlast, hone⟩ := getLast?_arriving hover
    rw [List.getLast?_map, hlast, Option.map_some, hpoint hone]
  next => rw [List.getLast?_singleton, hpoint le_rfl]

end

/-! ### Doubles -/

theorem not_neg_of_one_le {x : Float} (h : 1 ≤ x) : ¬ x < 0 := by
  have hone : rational? 1 = some 1 := by decide +kernel
  cases hq : rational? x with
  | some q =>
    rw [le_iff hone hq] at h
    rw [lt_iff hq rational?_zero, not_lt]
    exact zero_le_one.trans h
  | none =>
    rw [lt_iff_compare]
    have hle : ((1 : Float).toModel.unpack.compare x.toModel.unpack).any (·.isLE) = true := by
      have h' : decide _ = true := h
      exact of_decide_eq_true h'
    unfold rational? at hq
    cases hx : x.toModel.unpack with
    | zero | finite => simp [hx, unpackedRational] at hq
    | notANumber => simp [UnpackedFloat.compare]
    | infinity s =>
      cases s with
      | positive => decide +kernel
      | negative =>
        rw [hx] at hle
        exact absurd hle (by decide +kernel)

theorem point_of_one_le (way : Glide Float) {share : Float} (h : 1 ≤ share) :
    way.point share = way.finish.toStage := by
  have hclamp : (1 : Float) ≤ clamp 0 1 share := by
    simp only [clamp, if_neg (not_neg_of_one_le h)]
    split
    · decide
    · exact h
  simp only [Glide.point, if_pos hclamp]

theorem lands_emitted (way : Glide Float) {secs : Float} {elapsed : List Float}
    (h : 0 < secs → ∃ time ∈ elapsed, 1 ≤ time / secs) :
    (way.emitted secs elapsed).getLast? = some way.finish.toStage := by
  unfold Glide.emitted
  split
  next hsecs =>
    obtain ⟨time, htime, hle⟩ := h hsecs
    have hover : ∃ share ∈ elapsed.map (· / secs), 1 ≤ share :=
      ⟨time / secs, List.mem_map_of_mem htime, hle⟩
    obtain ⟨last, hlast, hone⟩ := getLast?_arriving hover
    rw [List.getLast?_map, hlast, Option.map_some, point_of_one_le way hone]
  next => rw [List.getLast?_singleton, point_of_one_le way (by decide)]

end SpriteStage.Stage
