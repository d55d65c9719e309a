import Mathlib
import SpriteStage.Proofs.Stage.Geometry
import SpriteStage.World.Motion
import SpriteStage.World.Sensing

/-!
Entities that bounce off the edges. One acts if and only if it touches an edge, and comes to stand
where a further bounce turns it, but does not move it.
-/

namespace SpriteStage

open Stage

/-- The numbers that a bounce reckons with are finite and not too large to be added. -/
structure Entity.Moderate (e : Entity) : Prop where
  x : Stage.Moderate e.x
  y : Stage.Moderate e.y
  w : Stage.Moderate e.halfSize.w
  h : Stage.Moderate e.halfSize.h

/-- The entity after it has bounced off an edge. -/
def Entity.bounced (e : Entity) (edge : Edge) : Entity :=
  { e.moved (pullBack e.position e.halfSize) with rotation := reflect edge e.rotation }

/-- What the host is told of a bounce. -/
def EntityPatch.bounced (e : Entity) : EntityPatch :=
  { EntityPatch.position e.position with rotation := some e.rotation }

namespace World

variable {w : World} {id : EntityId} {e : Entity}

theorem entity_update (he : w.entity id = .ok e) (e' : Entity) (patch : EntityPatch) :
    (w.update id e' patch).entity id = .ok e' := by
  rw [entity_eq_ok_iff] at he ⊢
  obtain ⟨hlt, -⟩ := List.getElem?_eq_some_iff.1 he
  rw [entities_update, List.getElem?_set_self hlt]

theorem bounceOnEdge_of_none (he : w.entity id = .ok e)
    (h : (gaps e.position e.halfSize).edge? = none) : w.bounceOnEdge id = .ok w := by
  simp only [bounceOnEdge, he, h, bind, Except.bind, pure, Except.pure]

theorem bounceOnEdge_of_some {edge : Edge} (he : w.entity id = .ok e)
    (h : (gaps e.position e.halfSize).edge? = some edge) :
    w.bounceOnEdge id = .ok (w.update id (e.bounced edge) (.bounced (e.bounced edge))) := by
  simp only [bounceOnEdge, he, h, bind, Except.bind, pure, Except.pure]
  rfl

theorem position_bounced (e : Entity) (edge : Edge) :
    (e.bounced edge).position = pullBack e.position e.halfSize :=
  rfl

theorem halfSize_bounced (e : Entity) (edge : Edge) : (e.bounced edge).halfSize = e.halfSize :=
  rfl

/-- A bounce of an entity that stands where it would be pulled back to does not move it. -/
theorem bounceOnEdge_of_pullBack (he : w.entity id = .ok e)
    (h : pullBack e.position e.halfSize = e.position) :
    ∃ w' e', w.bounceOnEdge id = .ok w' ∧ w'.entity id = .ok e' ∧ e'.position = e.position := by
  cases hedge : (gaps e.position e.halfSize).edge? with
  | none => exact ⟨w, e, bounceOnEdge_of_none he hedge, he, rfl⟩
  | some edge => exact ⟨_, _, bounceOnEdge_of_some he hedge, entity_update he _ _, h⟩

theorem touching_edge (he : w.entity id = .ok e) (hvisible : e.visible = true) :
    w.touching id edgeTarget = .ok (touchesEdge e.position e.halfSize) := by
  simp only [touching, he, hvisible, bind, Except.bind, pure, Except.pure]
  rfl

theorem isSome_edge?_of_moderate (h : e.Moderate) :
    (gaps e.position e.halfSize).edge?.isSome = touchesEdge e.position e.halfSize :=
  isSome_edge?_gaps_of_moderate h.x h.y h.w h.h

theorem pullBack_bounced (h : e.Moderate) (edge : Edge) :
    pullBack (e.bounced edge).position (e.bounced edge).halfSize = (e.bounced edge).position := by
  rw [halfSize_bounced, position_bounced, pullBack_eq, pullBack_eq]
  dsimp only
  rw [pulled_pulled_of_moderate isExtent_width h.w, pulled_pulled_of_moderate isExtent_height h.h]

/-- An entity bounces if and only if it touches an edge, in exact arithmetic and in doubles of
moderate size. It is pulled back into the stage as far as its size allows, and a further bounce
leaves it there. -/
theorem bounceOnEdge_acts_iff_touching :
    (∀ (center : Point ℚ) (half : HalfSize ℚ),
      (gaps center half).edge?.isSome = touchesEdge center half ∧
      (∀ edge, (gaps center half).edge? = some edge →
        ∀ other, (gaps center half).at edge ≤ (gaps center half).at other) ∧
      Inside 240 (pullBack center half).x half.w ∧ Inside 180 (pullBack center half).y half.h ∧
      pullBack (pullBack center half) half = pullBack center half) ∧
    ∀ (w : World) (id : EntityId) (e : Entity), w.entity id = .ok e → e.Moderate →
      (touchesEdge e.position e.halfSize = false → w.bounceOnEdge id = .ok w) ∧
      (touchesEdge e.position e.halfSize = true → ∃ edge w' w'' e'',
        (gaps e.position e.halfSize).edge? = some edge ∧
        w.bounceOnEdge id = .ok w' ∧
        w' = w.update id (e.bounced edge) (.bounced (e.bounced edge)) ∧
        Settled 240 (e.bounced edge).x e.halfSize.w ∧
        Settled 180 (e.bounced edge).y e.halfSize.h ∧
        w'.bounceOnEdge id = .ok w'' ∧ w''.entity id = .ok e'' ∧
        e''.position = (e.bounced edge).position) ∧
      (e.visible = true →
        w.touching id edgeTarget = .ok (touchesEdge e.position e.halfSize)) := by
  refine ⟨fun center half => ?_, fun w id e he hmoderate => ⟨fun hfar => ?_, fun hnear => ?_,
    touching_edge he⟩⟩
  · refine ⟨isSome_edge?_gaps center half, fun edge => Gaps.at_le_of_edge?,
      inside_pulled 240 half.w center.x, inside_pulled 180 half.h center.y, ?_⟩
    simp only [pullBack_eq, pulled_pulled]
  · have hacts := isSome_edge?_of_moderate hmoderate
    rw [hfar, Option.isSome_eq_false_iff, Option.isNone_iff_eq_none] at hacts
    exact bounceOnEdge_of_none he hacts
  · have hacts := isSome_edge?_of_moderate hmoderate
    rw [hnear] at hacts
    obtain ⟨edge, hedge⟩ := Option.isSome_iff_exists.1 hacts
    obtain ⟨w'', e'', hagain, he'', hp⟩ :=
      bounceOnEdge_of_pullBack (entity_update he (e.bounced edge) _)
        (pullBack_bounced hmoderate edge)
    exact ⟨edge, _, w'', e'', hedge, bounceOnEdge_of_some he hedge, rfl,
      settled_pulled isExtent_width hmoderate.w hmoderate.x,
      settled_pulled isExtent_height hmoderate.h hmoderate.y, hagain, he'', hp⟩

namespace Sample

-- A board that is wider than the stage and reaches below it.
def board : Entity where
  name := "Board"
  kind := .sprite
  x := 300
  y := -175
  rotation := 90
  scale := 0.5
  visible := true
  costumes := [⟨"", "plank", "", 1000, 40, (0, 0)⟩]
  currentCostume := 0
  sounds := []
  vars := .empty
  speechSeq := 0

def boarded : World :=
  { World.empty 10 with entities := [board], running := true }

theorem moderate_board : board.Moderate where
  x := ⟨300, by decide +kernel, by norm_num [abs_le]⟩
  y := ⟨-175, by decide +kernel, by norm_num [abs_le]⟩
  w := ⟨250, by decide +kernel, by norm_num [abs_le]⟩
  h := ⟨10, by decide +kernel, by norm_num [abs_le]⟩

end Sample

theorem bounceOnEdge_acts_iff_touching_board :
    Sample.boarded.touching 0 edgeTarget = .ok true ∧
    ∃ w' w'' e'', Sample.boarded.bounceOnEdge 0 = .ok w' ∧ w'.bounceOnEdge 0 = .ok w'' ∧
      w''.entity 0 = .ok e'' ∧ e''.position = ⟨0, -170⟩ := by
  have htouches : touchesEdge Sample.board.position Sample.board.halfSize = true := by
    decide +kernel
  have hpulled : pullBack Sample.board.position Sample.board.halfSize = ⟨0, -170⟩ := by
    decide +kernel
  obtain ⟨-, hacts, htouching⟩ :=
    bounceOnEdge_acts_iff_touching.2 Sample.boarded 0 Sample.board (entity_eq_ok_iff.2 rfl)
      Sample.moderate_board
  obtain ⟨edge, w', w'', e'', -, hbounce, -, -, -, hagain, he'', hp⟩ := hacts htouches
  rw [htouches] at htouching
  rw [position_bounced, hpulled] at hp
  exact ⟨htouching rfl, w', w'', e'', hbounce, hagain, he'', hp⟩

end World

end SpriteStage
