import Mathlib
import SpriteStage.Proofs.Number.Arithmetic
import SpriteStage.Stage.Geometry

/-!
Bouncing off the edges.

In exact arithmetic a box bounces if and only if it reaches an edge, and then it is pulled back to
where pulling back moves it no more. Doubles of moderate size behave alike, since a rounded sum has
the sign of the exact one, and all the rest is comparisons.
-/

open Float.Model Float.Model.UnpackedFloat

namespace SpriteStage.Stage

open Number

section

variable {α : Type} [Add α] [Sub α] [Neg α] [Mul α] [LT α] [LE α] [DecidableLT α] [DecidableLE α]
  [(n : Nat) → OfNat α n]

omit [Mul α] [LT α] [DecidableLT α] in
theorem touchesEdge_iff {center : Point α} {half : HalfSize α} :
    touchesEdge center half = true ↔ center.x - half.w ≤ -240 ∨ 240 ≤ center.x + half.w ∨
      180 ≤ center.y + half.h ∨ center.y - half.h ≤ -180 := by
  simp only [touchesEdge, Bool.or_eq_true, decide_eq_true_eq]
  tauto

/-- On one axis, the middle of a box pulled back between the edges. -/
def pulled (extent half center : α) : α :=
  clamp (-atLeast 0 (extent - half)) (atLeast 0 (extent - half)) center

omit [Add α] [Mul α] [LE α] [DecidableLE α] in
theorem pullBack_eq (center : Point α) (half : HalfSize α) :
    pullBack center half = ⟨pulled 240 half.w center.x, pulled 180 half.h center.y⟩ :=
  rfl

omit [Add α] [Sub α] [Neg α] [Mul α] [LE α] [DecidableLE α] [(n : Nat) → OfNat α n] in
theorem clamp_clamp {low high : α} (hlow : ¬ low < low) (hhigh : ¬ high < high)
    (h : ¬ high < low) (x : α) : clamp low high (clamp low high x) = clamp low high x := by
  unfold clamp
  grind

end

/-! ### Exact arithmetic -/

theorem clamp_eq (low high x : ℚ) : clamp low high x = min high (max low x) := by
  unfold clamp
  grind

theorem atLeast_eq (low x : ℚ) : atLeast low x = max low x := by
  unfold atLeast
  grind

theorem lesser_eq (x y : ℚ) : lesser x y = min x y := by
  unfold lesser
  grind

theorem Gaps.isSome_edge?_iff (g : Gaps ℚ) :
    g.edge?.isSome = true ↔ g.left ≤ 0 ∨ g.right ≤ 0 ∨ g.top ≤ 0 ∨ g.bottom ≤ 0 := by
  have hnearest : lesser (lesser (lesser g.left g.right) g.top) g.bottom ≤ 0 ↔
      g.left ≤ 0 ∨ g.right ≤ 0 ∨ g.top ≤ 0 ∨ g.bottom ≤ 0 := by
    simp only [lesser_eq, min_le_iff, or_assoc]
  rw [← hnearest, ← not_lt, Gaps.edge?]
  split_ifs <;> simp_all

def Gaps.at {α : Type} (g : Gaps α) : Edge → α
  | .left => g.left
  | .right => g.right
  | .top => g.top
  | .bottom => g.bottom

theorem Gaps.at_le_of_edge? {g : Gaps ℚ} {edge : Edge} (h : g.edge? = some edge) (other : Edge) :
    g.at edge ≤ g.at other := by
  simp only [Gaps.edge?, lesser_eq] at h
  cases edge <;> cases other <;> grind [Gaps.at]

theorem isSome_edge?_gaps (center : Point ℚ) (half : HalfSize ℚ) :
    (gaps center half).edge?.isSome = touchesEdge center half := by
  rw [Bool.eq_iff_iff, Gaps.isSome_edge?_iff, touchesEdge_iff]
  simp only [gaps]
  grind

/-- On one axis: a box that fits between the edges lies between them, and a larger one stands in the
middle. -/
def Inside (extent center half : ℚ) : Prop :=
  if half ≤ extent then -extent ≤ center - half ∧ center + half ≤ extent else center = 0

theorem inside_pulled (extent half center : ℚ) :
    Inside extent (pulled extent half center) half := by
  simp only [Inside, pulled, clamp_eq, atLeast_eq]
  grind

theorem pulled_pulled (extent half center : ℚ) :
    pulled extent half (pulled extent half center) = pulled extent half center := by
  apply clamp_clamp (lt_irrefl _) (lt_irrefl _)
  rw [atLeast_eq]
  grind

/-! ### Doubles -/

section Doubles

variable {x y : Float} {a b : ℚ}

theorem rational?_lesser (hx : rational? x = some a) (hy : rational? y = some b) :
    rational? (lesser x y) = some (lesser a b) := by
  simp only [lesser, le_iff hx hy, le_iff hy hy]
  split_ifs <;> assumption

theorem rational?_atLeast (hx : rational? x = some a) (hy : rational? y = some b) :
    rational? (atLeast x y) = some (atLeast a b) := by
  simp only [atLeast, lt_iff hx hy]
  split_ifs <;> assumption

theorem rational?_clamp {low high : Float} {l h : ℚ} (hlow : rational? low = some l)
    (hhigh : rational? high = some h) (hx : rational? x = some a) :
    rational? (clamp low high x) = some (clamp l h a) := by
  have hraised : rational? (if x < low then low else x) = some (if a < l then l else a) := by
    simp only [lt_iff hx hlow]
    split_ifs <;> assumption
  unfold clamp
  generalize (if x < low then low else x) = y, (if a < l then l else a) = b at hraised
  simp only [lt_iff hhigh hraised]
  split_ifs <;> assumption

theorem rational?_zero : rational? 0 = some 0 :=
  rfl

theorem edge?_eq {g : Gaps Float} {q : Gaps ℚ} (hleft : rational? g.left = some q.left)
    (hright : rational? g.right = some q.right) (htop : rational? g.top = some q.top)
    (hbottom : rational? g.bottom = some q.bottom) : g.edge? = q.edge? := by
  have hnearest := rational?_lesser (rational?_lesser (rational?_lesser hleft hright) htop) hbottom
  simp only [Gaps.edge?, lt_iff rational?_zero hnearest, le_iff hnearest hleft,
    le_iff hleft hnearest, le_iff hnearest hright, le_iff hright hnearest, le_iff hnearest htop,
    le_iff htop hnearest]

/-- A finite double whose sums with a few of its kind are finite. -/
def Moderate (x : Float) : Prop :=
  ∃ q, rational? x = some q ∧ |q| ≤ 2 ^ 60

/-- Half the width or half the height of the stage. -/
structure IsExtent (extent : Float) (q : ℚ) : Prop where
  eq : rational? extent = some q
  nonneg : 0 ≤ q
  le : q ≤ 2 ^ 60

theorem isExtent_width : IsExtent 240 240 := by
  have hwide : (240 : Float).toModel.unpack =
    .finite .positive (240 * 2 ^ 45) (-45) (by decide) := rfl
  refine ⟨?_, by norm_num, by norm_num⟩
  rw [rational?, hwide, unpackedRational]
  norm_num [Sign.apply]

theorem isExtent_height : IsExtent 180 180 := by
  have hhigh : (180 : Float).toModel.unpack =
    .finite .positive (180 * 2 ^ 45) (-45) (by decide) := rfl
  refine ⟨?_, by norm_num, by norm_num⟩
  rw [rational?, hhigh, unpackedRational]
  norm_num [Sign.apply]

variable {extent c half : Float} {q : ℚ}

/-- On one axis, a gap has the sign of the comparison between the end of the box and the edge. -/
theorem exists_gaps (he : IsExtent extent q) (hc : Moderate c) (hhalf : Moderate half) :
    ∃ l r, rational? (c - half + extent) = some l ∧ rational? (extent - (c + half)) = some r ∧
      (l ≤ 0 ↔ c - half ≤ -extent) ∧ (r ≤ 0 ↔ extent ≤ c + half) := by
  obtain ⟨he, hnonneg, hsmall⟩ := he
  obtain ⟨a, ha, hasmall⟩ := hc
  obtain ⟨b, hb, hbsmall⟩ := hhalf
  rw [abs_le] at hasmall hbsmall
  obtain ⟨d, hd, hdsmall, -⟩ := exists_rational?_sub (k := 61) ha hb
    (abs_le.2 ⟨by linarith, by linarith⟩) (by decide)
  obtain ⟨s, hs, hssmall, -⟩ := exists_rational?_add (k := 61) ha hb
    (abs_le.2 ⟨by linarith, by linarith⟩) (by decide)
  rw [abs_le] at hdsmall hssmall
  obtain ⟨l, hl, -, hlsign⟩ := exists_rational?_add (k := 62) hd he
    (abs_le.2 ⟨by linarith, by linarith⟩) (by decide)
  obtain ⟨r, hr, -, hrsign, -⟩ := exists_rational?_sub (k := 62) he hs
    (abs_le.2 ⟨by linarith, by linarith⟩) (by decide)
  refine ⟨l, r, hl, hr, ?_, ?_⟩
  · rw [hlsign, le_iff hd (rational?_neg he), le_neg_iff_add_nonpos_right]
  · rw [hrsign, le_iff he hs]

theorem isSome_edge?_gaps_of_moderate {center : Point Float} {half : HalfSize Float}
    (hx : Moderate center.x) (hy : Moderate center.y) (hw : Moderate half.w)
    (hh : Moderate half.h) : (gaps center half).edge?.isSome = touchesEdge center half := by
  obtain ⟨left, right, hleft, hright, hleft', hright'⟩ := exists_gaps isExtent_width hx hw
  obtain ⟨bottom, top, hbottom, htop, hbottom', htop'⟩ := exists_gaps isExtent_height hy hh
  have hedge : (gaps center half).edge? = Gaps.edge? ⟨left, right, top, bottom⟩ :=
    edge?_eq hleft hright htop hbottom
  rw [hedge, Bool.eq_iff_iff, Gaps.isSome_edge?_iff, touchesEdge_iff]
  simp only [hleft', hright', htop', hbottom']

/-- On one axis: the middle of a box keeps to the room that the box leaves between the edges, and
stands in the middle if it leaves none. -/
def Settled (extent center half : Float) : Prop :=
  if half ≤ extent then -(extent - half) ≤ center ∧ center ≤ extent - half
  else 0 ≤ center ∧ center ≤ 0

/-- The room that a box leaves to either side of the middle. -/
theorem exists_room (he : IsExtent extent q) (hhalf : Moderate half) :
    ∃ room, rational? (extent - half) = some room ∧
      rational? (atLeast 0 (extent - half)) = some (max 0 room) ∧
      (half ≤ extent → 0 ≤ room) ∧ (¬ half ≤ extent → room ≤ 0) := by
  obtain ⟨he, hnonneg, hsmall⟩ := he
  obtain ⟨b, hb, hbsmall⟩ := hhalf
  rw [abs_le] at hbsmall
  obtain ⟨room, hroom, -, hsign, hfits⟩ := exists_rational?_sub (k := 61) he hb
    (abs_le.2 ⟨by linarith, by linarith⟩) (by decide)
  have hmost := rational?_atLeast rational?_zero hroom
  rw [atLeast_eq] at hmost
  rw [le_iff hb he]
  exact ⟨room, hroom, hmost, hfits, fun h => hsign.2 (le_of_not_ge h)⟩

theorem settled_pulled (he : IsExtent extent q) (hhalf : Moderate half) (hc : Moderate c) :
    Settled extent (pulled extent half c) half := by
  obtain ⟨room, hroom, hmost, hfits, htight⟩ := exists_room he hhalf
  obtain ⟨a, ha, -⟩ := hc
  have hpulled : rational? (pulled extent half c) = _ :=
    rational?_clamp (rational?_neg hmost) hmost ha
  rw [clamp_eq] at hpulled
  rw [Settled, le_iff (rational?_neg hroom) hpulled, le_iff hpulled hroom,
    le_iff rational?_zero hpulled, le_iff hpulled rational?_zero]
  split
  next h =>
    have hnonneg := hfits h
    grind
  next h =>
    have hnonpos := htight h
    grind

theorem pulled_pulled_of_moderate (he : IsExtent extent q) (hhalf : Moderate half) :
    pulled extent half (pulled extent half c) = pulled extent half c := by
  obtain ⟨room, -, hmost, -⟩ := exists_room he hhalf
  have hleast := rational?_neg hmost
  apply clamp_clamp
  · rw [lt_iff hleast hleast]
    exact lt_irrefl _
  · rw [lt_iff hmost hmost]
    exact lt_irrefl _
  · rw [lt_iff hmost hleast]
    grind

end Doubles

end SpriteStage.Stage
