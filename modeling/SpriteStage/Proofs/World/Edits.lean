import SpriteStage.Proofs.Script.Refusal
import SpriteStage.Proofs.World.Mirror

/-!
The edits by which scripts change the world.

Every function that a statement calls makes a few edits of the kinds below (`World.Edited`), or it
fails, but never for want of an entity that exists. This is said once for each function
(`World.Changes`). What all edits keep is then proved by induction over them: the host hears of what
it sees, no failure is reported, and an entity wears one of its costumes.
-/

namespace SpriteStage

open Eval
open Stage (Point Glide)

/-- An entity with costumes wears one of them. Without any, the number that it would wear is zero. -/
structure Entity.Dressed (e : Entity) : Prop where
  worn : e.costumes ≠ [] → e.currentCostume < e.costumes.length
  bare : e.costumes = [] → e.currentCostume = 0

def HostEvent.isFailure : HostEvent → Bool
  | .runtimeError .. => true
  | _ => false

def HostEvent.isBubble : HostEvent → Bool
  | .speechBubble .. => true
  | _ => false

namespace World

/-- Edits one after the other. Speech bubbles come and go only if `speech` is true, and requests for
the mouse only if `mouse` is. -/
inductive Edited (speech mouse : Bool) : World → World → Prop where
  | refl (w : World) : Edited speech mouse w w
  | trans {w w' w'' : World} (h : Edited speech mouse w w') (h' : Edited speech mouse w' w'') :
      Edited speech mouse w w''
  | notify (w : World) {event : HostEvent} (ha : event.isAside = true)
      (hf : event.isFailure = false) (hb : event.isBubble = false) :
      Edited speech mouse w (w.notify event)
  | bubble {w : World} {id : EntityId} {e : Entity} (hs : speech = true)
      (he : w.entities[id]? = some e) (text : String) (kind : SpeechKind) (millis : Option Nat) :
      Edited speech mouse w ((w.setEntity id { e with speechSeq := e.speechSeq + 1 }).notify
        (.speechBubble id text kind millis))
  | update {w : World} {id : EntityId} {e e' : Entity} {patch : EntityPatch}
      (he : w.entities[id]? = some e) (hs : e'.sight = patch.applyTo e.sight) (hp : patch.Placed)
      (hn : e'.speechSeq = e.speechSeq) (hv : e'.vars = e.vars) (hd : e.Dressed → e'.Dressed) :
      Edited speech mouse w (w.update id e' patch)
  | setCell (w : World) (id : EntityId) (name : String) (v : Variable) :
      Edited speech mouse w (w.setCell (w.cell id name) v)
  | record (w : World) (record : MessageRecord) :
      Edited speech mouse w { w with switchboard := w.switchboard.record record }
  | timer (w : World) (timerStart : Nat) : Edited speech mouse w { w with timerStart }
  | requests (w : World) (hm : mouse = true) (requests : List MouseRequest) (nextTicket : Nat) :
      Edited speech mouse w { w with requests, nextTicket }

namespace Edited

variable {w w' : World} {speech mouse : Bool}

/-! ### What edits keep -/

theorem sights_setCell (w : World) (c : Cell) (v : Variable) : (w.setCell c v).sights = w.sights := by
  cases c with
  | own id name =>
    apply List.ext_getElem?
    intro i
    by_cases hi : id = i
    · simp only [sights, World.setCell, hi, List.getElem?_map, List.getElem?_modify_eq]
      cases w.entities[i]? <;> rfl
    · simp [sights, World.setCell, hi]
  | shared name => rfl

theorem acted (h : w.Edited speech mouse w') : w.Acted w' := by
  induction h with
  | refl w => exact .refl w
  | trans _ _ ih ih' => exact ih.trans ih'
  | notify w ha _ _ => exact .notify w ha
  | @bubble w id e _ he =>
    have hset : w.Acted (w.setEntity id { e with speechSeq := e.speechSeq + 1 }) :=
      .setEntity he rfl
    exact hset.trans (.notify _ rfl)
  | update he hs hp _ _ _ => exact .update he hs hp
  | setCell w id name v =>
    have hs := sights_setCell w (w.cell id name) v
    cases hc : w.cell id name <;> rw [hc] at hs <;> exact .unseen rfl ⟨_, rfl⟩ rfl hs
  | record w record => exact .unseen rfl ⟨_, rfl⟩ rfl rfl
  | timer w | requests w => exact .unseen rfl ⟨_, rfl⟩ rfl rfl

theorem imp {speech' mouse' : Bool} (h : w.Edited speech mouse w')
    (hs : speech = true → speech' = true) (hm : mouse = true → mouse' = true) :
    w.Edited speech' mouse' w' := by
  induction h with
  | refl w => exact .refl w
  | trans _ _ ih ih' => exact ih.trans ih'
  | notify w ha hf hb => exact .notify w ha hf hb
  | bubble h he text kind millis => exact .bubble (hs h) he text kind millis
  | update he hs hp hn hv hd => exact .update he hs hp hn hv hd
  | setCell w id name v => exact .setCell w id name v
  | record w record => exact .record w record
  | timer w timerStart => exact .timer w timerStart
  | requests w h requests nextTicket => exact .requests w (hm h) requests nextTicket

theorem speaking (h : w.Edited speech mouse w') : w.Edited true mouse w' :=
  h.imp (fun _ => rfl) id

/-- No failure is reported. -/
theorem quiet (h : w.Edited speech mouse w') :
    w'.reported = w.reported ∧
      ∃ news, w'.events = w.events ++ news ∧ ∀ event ∈ news, event.isFailure = false := by
  have hnotify : ∀ (w : World) (event : HostEvent), event.isFailure = false →
      ∃ news, (w.notify event).events = w.events ++ news ∧
        ∀ event ∈ news, event.isFailure = false := by
    intro w event hf
    refine ⟨_, rfl, fun other hother => ?_⟩
    split at hother
    · rwa [List.mem_singleton.1 hother]
    · cases hother
  have hsame : ∀ {w w' : World}, w'.events = w.events →
      ∃ news, w'.events = w.events ++ news ∧ ∀ event ∈ news, event.isFailure = false :=
    fun he => ⟨[], by rw [he, List.append_nil], nofun⟩
  induction h with
  | refl w => exact ⟨rfl, hsame rfl⟩
  | trans _ _ ih ih' =>
    obtain ⟨hreported, news, hevents, hquiet⟩ := ih
    obtain ⟨hreported', more, hevents', hquiet'⟩ := ih'
    refine ⟨hreported'.trans hreported, news ++ more, ?_, fun event hevent => ?_⟩
    · rw [hevents', hevents, List.append_assoc]
    · exact (List.mem_append.1 hevent).elim (hquiet event) (hquiet' event)
  | notify w _ hf _ => exact ⟨rfl, hnotify w _ hf⟩
  | @bubble w id e =>
    exact ⟨rfl, hnotify (w.setEntity id { e with speechSeq := e.speechSeq + 1 }) _ rfl⟩
  | @update w id e e' patch =>
    exact ⟨rfl, hnotify (w.setEntity id e') (.entityStateChanged id patch) rfl⟩
  | setCell w id name v => cases w.cell id name <;> exact ⟨rfl, hsame rfl⟩
  | record w record => exact ⟨rfl, hsame rfl⟩
  | timer w | requests w => exact ⟨rfl, hsame rfl⟩

theorem dressed (h : w.Edited speech mouse w') (hw : ∀ e ∈ w.entities, e.Dressed) :
    ∀ e ∈ w'.entities, e.Dressed := by
  induction h with
  | refl w => exact hw
  | trans _ _ ih ih' => exact ih' (ih hw)
  | notify w => exact hw
  | bubble _ he =>
    intro other hother
    rcases List.mem_or_eq_of_mem_set hother with hother | rfl
    · exact hw other hother
    · have hd := hw _ (List.mem_of_getElem? he)
      exact ⟨hd.worn, hd.bare⟩
  | update he _ _ _ _ hd =>
    intro other hother
    rcases List.mem_or_eq_of_mem_set hother with hother | rfl
    · exact hw other hother
    · exact hd (hw _ (List.mem_of_getElem? he))
  | setCell w id name v =>
    cases w.cell id name with
    | own id name =>
      intro other hother
      obtain ⟨i, hi⟩ := List.mem_iff_getElem?.1 hother
      simp only [World.setCell, List.getElem?_modify] at hi
      obtain ⟨e, he, rfl⟩ := Option.map_eq_some_iff.1 hi
      have hd := hw e (List.mem_of_getElem? he)
      split
      · exact ⟨hd.worn, hd.bare⟩
      · exact hd
    | shared name => exact hw
  | record w record => exact hw
  | timer w | requests w => exact hw

/-- The clock, the mouse and the keys are left to the host. -/
theorem outside (h : w.Edited speech mouse w') :
    w'.clock = w.clock ∧ w'.mouse = w.mouse ∧ w'.keys = w.keys := by
  induction h with
  | trans _ _ ih ih' =>
    exact ⟨ih'.1.trans ih.1, ih'.2.1.trans ih.2.1, ih'.2.2.trans ih.2.2⟩
  | setCell w id name v => cases w.cell id name <;> exact ⟨rfl, rfl, rfl⟩
  | _ => exact ⟨rfl, rfl, rfl⟩

theorem clock (h : w.Edited speech mouse w') : w'.clock = w.clock :=
  h.outside.1

theorem mouse_eq (h : w.Edited speech mouse w') : w'.mouse = w.mouse :=
  h.outside.2.1

theorem keys (h : w.Edited speech mouse w') : w'.keys = w.keys :=
  h.outside.2.2

end Edited

/-- The change of an entity is an edit of the world, or it is refused. -/
def Changes (w : World) (id : EntityId) (x : Except ScriptError World) : Prop :=
  Meets x (w.Edited false false) (w.Refuses id)

section Changes

variable (w : World) (id : EntityId)

/-! ### Motion -/

theorem meets_checkPoint (p : Point Float) :
    Meets (checkPoint p) (fun _ => True) (w.Refuses id) := by
  unfold checkPoint
  split
  · exact fun _ => nofun
  · trivial

theorem meets_checkFinite (x : Float) (what : String) :
    Meets (checkFinite x what) (fun _ => True) (w.Refuses id) := by
  unfold checkFinite
  split
  · trivial
  · exact fun _ => nofun

theorem changes_moveTo (p : Point Float) : w.Changes id (w.moveTo id p) := by
  refine (w.meets_checkPoint id p).bind fun _ _ => (w.meets_entity id).bind fun e he => ?_
  exact .update (entity_eq_ok_iff.1 he) rfl (EntityPatch.placed_position _) rfl rfl
    fun hd => ⟨hd.1, hd.2⟩

theorem changes_moveBy (dx dy : Float) : w.Changes id (w.moveBy id dx dy) :=
  (w.meets_entity id).bind fun _ _ => w.changes_moveTo id _

theorem changes_moveSteps (steps : Float) : w.Changes id (w.moveSteps id steps) :=
  (w.meets_entity id).bind fun _ _ => w.changes_moveBy id _ _

theorem changes_pointInDirection (direction : Float) :
    w.Changes id (w.pointInDirection id direction) := by
  refine (w.meets_checkFinite id _ _).bind fun _ _ => (w.meets_entity id).bind fun e he => ?_
  exact .update (entity_eq_ok_iff.1 he) rfl (EntityPatch.placed_of_x_none rfl) rfl rfl
    fun hd => ⟨hd.1, hd.2⟩

theorem changes_rotate (degrees : Float) : w.Changes id (w.rotate id degrees) :=
  (w.meets_checkFinite id _ _).bind fun _ _ =>
    (w.meets_entity id).bind fun _ _ => w.changes_pointInDirection id _

theorem changes_bounceOnEdge : w.Changes id (w.bounceOnEdge id) := by
  refine (w.meets_entity id).bind fun e he => ?_
  split
  · exact .refl w
  · exact .update (entity_eq_ok_iff.1 he) rfl (EntityPatch.placed_position _) rfl rfl
      fun hd => ⟨hd.1, hd.2⟩

theorem meets_planGlide (p : Point Float) :
    Meets (w.planGlide id p) (fun _ => True) (w.Refuses id) :=
  (w.meets_checkPoint id p).bind fun _ _ => (w.meets_entity id).bind fun _ _ => trivial

theorem changes_glideTo (way : Glide Float) (share : Float) :
    w.Changes id (w.glideTo id way share) := by
  refine (w.meets_entity id).bind fun e he => ?_
  exact .update (entity_eq_ok_iff.1 he) rfl (EntityPatch.placed_position _) rfl rfl
    fun hd => ⟨hd.1, hd.2⟩

/-! ### Looks -/

theorem changes_setSize (percent : Float) : w.Changes id (w.setSize id percent) := by
  refine (w.meets_checkFinite id _ _).bind fun _ _ => (w.meets_entity id).bind fun e he => ?_
  exact .update (entity_eq_ok_iff.1 he) rfl (EntityPatch.placed_of_x_none rfl) rfl rfl
    fun hd => ⟨hd.1, hd.2⟩

theorem changes_changeSize (percent : Float) : w.Changes id (w.changeSize id percent) :=
  (w.meets_entity id).bind fun _ _ => w.changes_setSize id _

theorem changes_setVisible (visible : Bool) : w.Changes id (w.setVisible id visible) := by
  refine (w.meets_entity id).bind fun e he => ?_
  exact .update (entity_eq_ok_iff.1 he) rfl (EntityPatch.placed_of_x_none rfl) rfl rfl
    fun hd => ⟨hd.1, hd.2⟩

theorem meets_say (kind : SpeechKind) (text : String) (secs : Option Float) :
    Meets (w.say id kind text secs) (fun r => w.Edited true false r.2) (w.Refuses id) :=
  (w.meets_entity id).bind fun _ he => .bubble rfl (entity_eq_ok_iff.1 he) text kind _

theorem meets_clearSpeech (kind : SpeechKind) (seq : Nat) :
    Meets (w.clearSpeech id kind seq) (w.Edited true false) (w.Refuses id) := by
  refine (w.meets_entity id).bind fun e he => ?_
  split
  next hseq =>
    subst hseq
    exact .bubble rfl (entity_eq_ok_iff.1 he) "" kind none
  · exact .refl w

theorem meets_startSound (choice : Value) :
    Meets (w.startSound id choice) (fun r => w.Edited false false r.2) (w.Refuses id) := by
  refine (w.meets_entity id).bind fun e _ => ?_
  split
  · exact .notify w rfl rfl rfl
  · exact fun _ => nofun

/-! ### Costumes -/

theorem costumeIndex?_lt {costumes : List Costume} {current index : Nat} {choice : Value}
    {words : Keywords} (h : costumeIndex? costumes current choice words = some index) :
    index < costumes.length := by
  unfold costumeIndex? at h
  dsimp only at h
  split at h
  · cases h
  next hlength =>
    have hpos : 0 < costumes.length := Nat.pos_of_ne_zero hlength
    have hnumber : ∀ x : Float, (if x.isFinite then some (wrapIndex x costumes.length) else none) =
        some index → index < costumes.length := by
      intro x hx
      split at hx
      · cases hx
        exact wrapIndex_lt x hpos
      · cases hx
    split at h
    · exact hnumber _ h
    · cases h
    · split at h
      next found =>
        cases h
        exact (List.findIdx?_eq_some_iff_findIdx_eq.1 found).1
      · split at h
        · cases h
          exact Nat.mod_lt _ hpos
        · split at h
          · cases h
            exact Nat.mod_lt _ hpos
          · obtain ⟨x, _, hx⟩ := Option.bind_eq_some_iff.1 h
            exact hnumber x hx

variable {w id} in
theorem changes_applyCostume {index : Nat} {e : Entity} (he : w.entity id = .ok e)
    (hi : index < e.costumes.length) : w.Changes id (w.applyCostume id index) := by
  refine (w.meets_entity id).bind fun e' he' => ?_
  rw [he] at he'
  cases he'
  have hdressed : ({ e with currentCostume := index } : Entity).Dressed := by
    refine ⟨fun _ => hi, fun hbare => ?_⟩
    have hbare' : e.costumes = [] := hbare
    rw [hbare'] at hi
    cases hi
  have hu : w.Edited false false (w.update id { e with currentCostume := index }
      { EntityPatch.empty with costume := some index }) :=
    .update (entity_eq_ok_iff.1 he) rfl (EntityPatch.placed_of_x_none rfl) rfl rfl fun _ => hdressed
  show w.Edited false false (if _ then _ else _)
  split
  · exact hu.trans (.notify _ rfl rfl rfl)
  · exact hu

theorem changes_nextCostume : w.Changes id (w.nextCostume id) := by
  refine (w.meets_entity id).bind fun e he => ?_
  split
  · exact .refl w
  next hbare =>
    have hpos : 0 < e.costumes.length := by
      rw [List.isEmpty_iff] at hbare
      exact List.length_pos_iff.2 hbare
    exact changes_applyCostume he (Nat.mod_lt _ hpos)

theorem meets_background : Meets w.background (· < w.entities.length) (w.Refuses id) := by
  unfold background
  split
  next hfound => exact (List.findIdx?_eq_some_iff_findIdx_eq.1 hfound).1
  · exact fun _ => nofun

theorem changes_nextBackground : w.Changes id w.nextBackground :=
  (w.meets_background id).bind fun back hback => (w.changes_nextCostume back).refuses hback id

theorem meets_drawOther {current length : Nat} (h : 0 < length) :
    (drawOther current length).Meets (· < length) (w.Refuses id) := by
  unfold drawOther
  split
  · exact meets_pure h
  · exact (meets_draw _).bind fun _ _ => meets_pure (Nat.mod_lt _ h)

theorem meets_switchBackground (choice : Value) :
    (w.switchBackground choice).Meets (w.Edited false false) (w.Refuses id) := by
  refine (meets_ofExcept (w.meets_background id)).bind fun back hback => ?_
  refine (meets_ofExcept ((w.meets_entity back).refuses hback id)).bind fun e he => ?_
  split
  next hrandom =>
    have hpos : 0 < e.costumes.length := by
      cases hcostumes : e.costumes with
      | nil => simp [hcostumes] at hrandom
      | cons => exact Nat.succ_pos _
    refine (w.meets_drawOther id hpos).bind fun index hi => ?_
    exact meets_ofExcept ((changes_applyCostume he hi).refuses hback id)
  · split
    next hindex =>
      exact meets_ofExcept ((changes_applyCostume he (costumeIndex?_lt hindex)).refuses hback id)
    · exact meets_throw fun _ => nofun

theorem meets_switchCostume (choice : Value) :
    (w.switchCostume id choice).Meets (w.Edited false false) (w.Refuses id) := by
  refine (meets_ofExcept (w.meets_entity id)).bind fun e he => ?_
  split
  · exact w.meets_switchBackground id choice
  · split
    next hindex => exact meets_ofExcept (changes_applyCostume he (costumeIndex?_lt hindex))
    · exact meets_throw fun _ => nofun

end Changes

/-! ### Variables -/

theorem edited_changeVariable {speech mouse : Bool} (w : World) (id : EntityId) (name : String)
    (f : Variable → Variable) : w.Edited speech mouse (w.changeVariable id name f) :=
  .trans (.setCell w id name _) (.notify _ rfl rfl rfl)

theorem edited_setVar {speech mouse : Bool} (w : World) (id : EntityId) (name : String)
    (value : Value) : w.Edited speech mouse (w.setVar id name value) :=
  edited_changeVariable w id name _

end World

end SpriteStage
