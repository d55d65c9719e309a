import SpriteStage.Proofs.Machine.Sound

/-!
What a move does to the entities and the global variables: unless it loads others, it makes edits as
statements make them, or leaves them alone.
-/

namespace SpriteStage.Machine

theorem exists_load_of_isLoad {move : Move} (h : move.isLoad = true) :
    ∃ specs program, move = .command (.loadProgram specs program) := by
  cases move with
  | command command =>
    cases command with
    | loadProgram specs program => exact ⟨specs, program, rfl⟩
    | _ => cases h
  | _ => cases h

/-- The entities and the global variables differ by edits. -/
def Edits (m n : Machine) : Prop :=
  ∃ w, m.world.Edited true true w ∧ n.world.entities = w.entities ∧ n.world.globals = w.globals

namespace Edits

variable {m l n : Machine}

theorem of_edited (h : m.world.Edited true true n.world) : m.Edits n :=
  ⟨n.world, h, rfl, rfl⟩

theorem of_eq (he : n.world.entities = m.world.entities) (hg : n.world.globals = m.world.globals) :
    m.Edits n :=
  ⟨m.world, .refl m.world, he, hg⟩

theorem still (h : m.Edits l) (he : n.world.entities = l.world.entities)
    (hg : n.world.globals = l.world.globals) : m.Edits n := by
  obtain ⟨w, hw, hentities, hglobals⟩ := h
  exact ⟨w, hw, he.trans hentities, hg.trans hglobals⟩

theorem finish (h : m.Edits n) (t : Task) (ending : Ending ScriptError) :
    m.Edits (n.finish t ending) := by
  cases ending with
  | completed | cancelled => exact h
  | failed e =>
    simp only [Machine.finish, World.reportFailure]
    split
    · split
      · exact h
      · exact h.still rfl rfl
    · exact h

theorem suspend (h : m.Edits n) (id : TaskId) (pause : Pause) (frames : List Frame) :
    m.Edits (n.suspend id pause frames) := by
  obtain ⟨tasks, yielded, waits, he⟩ := suspend_shape n id pause frames
  rw [he]
  exact h

theorem stopAll (h : m.Edits n) : m.Edits n.stopAll :=
  h.still (by rw [world_stopAll]; rfl) (by rw [world_stopAll]; rfl)

/-- The edits of a turn, at any of its statements and at its end. -/
theorem turn {id : TaskId} {self : Self} {ms : List Moment}
    (hp : Path self (m.setTask id ({ · with state := .running })) ms n) : m.Edits n :=
  of_edited (m := m) hp.edited

theorem polled {id : TaskId} {ms : List Moment} (hp : Polled m id ms n) : m.Edits n := by
  cases hp with
  | absent => exact of_eq rfl rfl
  | stopped => exact (of_eq rfl rfl : m.Edits m).finish _ _
  | paused _ _ hp pause frames => exact (turn hp).suspend id pause frames
  | ended _ _ hp ending => exact (turn hp).finish _ ending
  | @stoppedAll t _ n _ _ hp =>
    have hcounted : m.Edits n.counted := of_edited (m := m) hp.edited
    exact hcounted.stopAll.finish _ .cancelled
  | @stoppedSprite t _ n _ _ hp =>
    have hcounted : m.world.Edited true true n.counted.world := hp.edited
    exact (of_edited (hcounted.trans (edited_stopEntity n.counted t.entity))).finish _ .cancelled

theorem moved {move : Move} (hm : Moved m move n) (hload : move.isLoad = false) : m.Edits n := by
  cases hm with
  | aside _ ha => exact of_eq ha.entities ha.globals
  | spawn _ ha _ ls =>
    exact of_eq (by rw [world_spawnAll, ha.entities]) (by rw [world_spawnAll, ha.globals])
  | broadcast name sender => exact of_edited (edited_broadcast m name sender)
  | load => cases hload
  | start => exact of_eq (by rw [world_start]; rfl) (by rw [world_start]; rfl)
  | stop => exact stopAll (of_eq rfl rfl)
  | close => exact of_eq (by rw [world_halt]; rfl) (by rw [world_halt]; rfl)
  | @poll id n hp => exact polled (m := m.dequeue id) hp

end Edits

end SpriteStage.Machine
