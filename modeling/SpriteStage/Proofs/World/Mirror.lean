import SpriteStage.World.Data
import SpriteStage.World.Looks

/-!
What a host sees of the entities.

A host that keeps a copy of what it sees and writes every patch over it has, in a run, always what
is on the stage (`World.Told`). What scripts do to the world keeps this, and leaves alone what only
the host and the scheduler change (`World.Acted`).
-/

namespace SpriteStage

open Stage (Point Glide)

/-- What a host sees of an entity. -/
structure Sight where
  x : Float
  y : Float
  rotation : Float
  scale : Float
  visible : Bool
  costume : Nat
  deriving DecidableEq, Repr

def Entity.sight (e : Entity) : Sight :=
  ⟨e.x, e.y, e.rotation, e.scale, e.visible, e.currentCostume⟩

/-! ### Patches -/

namespace EntityPatch

/-- Writes the patch over what was seen before; absent fields stay. -/
def applyTo (p : EntityPatch) (s : Sight) : Sight where
  x := p.x.getD s.x
  y := p.y.getD s.y
  rotation := p.rotation.getD s.rotation
  scale := p.scale.getD s.scale
  visible := p.visible.getD s.visible
  costume := p.costume.getD s.costume

/-- A patch that places the entity on the stage places it at the same point of the canvas. -/
def Placed (p : EntityPatch) : Prop :=
  ∀ x y, p.x = some x → p.y = some y →
    p.canvasX = some (Point.toCanvas ⟨x, y⟩).x ∧ p.canvasY = some (Point.toCanvas ⟨x, y⟩).y

theorem placed_position (p : Point Float) : (position p).Placed := by
  intro x y hx hy
  cases hx
  cases hy
  exact ⟨rfl, rfl⟩

theorem placed_of_x_none {p : EntityPatch} (h : p.x = none) : p.Placed := by
  intro x y hx
  rw [h] at hx
  cases hx

end EntityPatch

/-- Does the event leave the copy of a host and the run as they are? -/
def HostEvent.isAside : HostEvent → Bool
  | .entityStateChanged .. | .executionStopped => false
  | _ => true

def HostEvent.mirror (sights : List Sight) : HostEvent → List Sight
  | .entityStateChanged id patch => sights.modify id patch.applyTo
  | _ => sights

def mirror (sights : List Sight) (news : List HostEvent) : List Sight :=
  news.foldl HostEvent.mirror sights

theorem mirror_append (sights : List Sight) (news more : List HostEvent) :
    mirror sights (news ++ more) = mirror (mirror sights news) more :=
  List.foldl_append

namespace World

def sights (w : World) : List Sight :=
  w.entities.map Entity.sight

theorem sights_setEntity {w : World} {id : EntityId} {e e' : Entity} {f : Sight → Sight}
    (he : w.entities[id]? = some e) (hs : e'.sight = f e.sight) :
    (w.setEntity id e').sights = w.sights.modify id f := by
  apply List.ext_getElem?
  intro i
  by_cases hi : id = i
  · subst hi
    obtain ⟨hlt, rfl⟩ := List.getElem?_eq_some_iff.1 he
    simp [sights, setEntity, hs, hlt]
  · simp [sights, setEntity, hi]

/-! ### Telling the host -/

/-- From one world to the next the host was told `news`, and nothing else has changed for it. -/
structure Told (w : World) (news : List HostEvent) (w' : World) : Prop where
  events : w'.events = w.events ++ news
  sights : w'.sights = mirror w.sights news
  placed : ∀ id patch, .entityStateChanged id patch ∈ news → patch.Placed

theorem Told.refl (w : World) : w.Told [] w :=
  ⟨(List.append_nil w.events).symm, rfl, fun _ _ h => nomatch h⟩

theorem Told.trans {w w' w'' : World} {news more : List HostEvent} (h : w.Told news w')
    (h' : w'.Told more w'') : w.Told (news ++ more) w'' where
  events := by rw [h'.events, h.events, List.append_assoc]
  sights := by rw [h'.sights, h.sights, mirror_append]
  placed id patch hp := (List.mem_append.1 hp).elim (h.placed id patch) (h'.placed id patch)

theorem Told.of_eq {w w' : World} (he : w'.events = w.events) (hs : w'.sights = w.sights) :
    w.Told [] w' :=
  ⟨by rw [he, List.append_nil], hs, fun _ _ h => nomatch h⟩

/-! ### What scripts do to the world -/

theorem ok_of_bind {α β : Type} {x : Except ScriptError α} {f : α → Except ScriptError β} {b : β}
    (h : x >>= f = .ok b) : ∃ a, x = .ok a ∧ f a = .ok b := by
  cases x with
  | error e => cases h
  | ok a => exact ⟨a, rfl, h⟩

theorem error_of_bind {α β : Type} {x : Except ScriptError α} {f : α → Except ScriptError β}
    {e : ScriptError} (h : x >>= f = .error e) : x = .error e ∨ ∃ a, x = .ok a ∧ f a = .error e := by
  cases x with
  | error e' =>
    cases h
    exact .inl rfl
  | ok a => exact .inr ⟨a, rfl, h⟩

/-- What a script may do to the world at once: the run and the listeners stay, entities
neither come nor go, and in a run the host is told of all it sees. -/
structure Acted (w w' : World) : Prop where
  running : w'.running = w.running
  switchboard : ∃ history, w'.switchboard = { w.switchboard with history }
  length : w'.entities.length = w.entities.length
  told : w.running = true → ∃ news, w.Told news w' ∧ .executionStopped ∉ news

namespace Acted

theorem refl (w : World) : w.Acted w :=
  ⟨rfl, ⟨_, rfl⟩, rfl, fun _ => ⟨[], .refl w, List.not_mem_nil⟩⟩

theorem trans {w w' w'' : World} (h : w.Acted w') (h' : w'.Acted w'') : w.Acted w'' where
  running := h'.running.trans h.running
  switchboard := by
    obtain ⟨history, hb⟩ := h.switchboard
    obtain ⟨history', hb'⟩ := h'.switchboard
    exact ⟨history', by rw [hb', hb]⟩
  length := h'.length.trans h.length
  told hr := by
    obtain ⟨news, hn, hs⟩ := h.told hr
    obtain ⟨more, hm, hs'⟩ := h'.told (h.running.trans hr)
    exact ⟨news ++ more, hn.trans hm, fun hc => (List.mem_append.1 hc).elim hs hs'⟩

theorem notify (w : World) {event : HostEvent} (h : event.isAside = true) :
    w.Acted (w.notify event) where
  running := rfl
  switchboard := ⟨_, rfl⟩
  length := rfl
  told hr := by
    refine ⟨[event], ⟨by simp [World.notify, hr], ?_, ?_⟩, ?_⟩
    · cases event with
      | entityStateChanged id patch => cases h
      | _ => rfl
    · intro id patch hp
      cases List.mem_singleton.1 hp
      cases h
    · intro hs
      cases List.mem_singleton.1 hs
      cases h

theorem setEntity {w : World} {id : EntityId} {e e' : Entity} (he : w.entities[id]? = some e)
    (hs : e'.sight = e.sight) : w.Acted (w.setEntity id e') where
  running := rfl
  switchboard := ⟨_, rfl⟩
  length := List.length_set
  told _ := by
    have h : (w.setEntity id e').sights = w.sights := by
      rw [sights_setEntity (f := fun s => s) he hs]
      exact List.modify_id id w.sights
    exact ⟨[], .of_eq rfl h, List.not_mem_nil⟩

theorem update {w : World} {id : EntityId} {e e' : Entity} {patch : EntityPatch}
    (he : w.entities[id]? = some e) (hs : e'.sight = patch.applyTo e.sight) (hp : patch.Placed) :
    w.Acted (w.update id e' patch) where
  running := rfl
  switchboard := ⟨_, rfl⟩
  length := List.length_set
  told hr := by
    refine ⟨[.entityStateChanged id patch], ⟨?_, ?_, ?_⟩, by simp⟩
    · simp [World.update, World.notify, World.setEntity, hr]
    · exact sights_setEntity he hs
    · intro id' patch' h
      cases List.mem_singleton.1 h
      exact hp

theorem unseen {w w' : World} (hr : w'.running = w.running)
    (hb : ∃ history, w'.switchboard = { w.switchboard with history }) (he : w'.events = w.events)
    (hs : w'.sights = w.sights) : w.Acted w' where
  running := hr
  switchboard := hb
  length := by simpa [sights] using congrArg List.length hs
  told _ := ⟨[], .of_eq he hs, List.not_mem_nil⟩

end Acted

end World

end SpriteStage
