import SpriteStage.Proofs.Machine.Sound

/-!
What a move tells the host.

Short of loading other entities, the host is told of all it sees, and it is told that the run has
ended once for each time that somebody ends it for all (`Sound.tells_move`).
-/

namespace SpriteStage

namespace World

/-- The host is told of all it sees, and `stops` times that the run has ended. -/
def Tells (w : World) (stops : Nat) (w' : World) : Prop :=
  ∃ news, w.Told news w' ∧ news.count .executionStopped = stops

namespace Tells

variable {w w' w'' : World}

theorem silent (he : w'.events = w.events) (hs : w'.sights = w.sights) : w.Tells 0 w' :=
  ⟨[], .of_eq he hs, rfl⟩

theorem of_acted (h : w.Acted w') (hr : w.running = true) : w.Tells 0 w' := by
  obtain ⟨news, hnews, hs⟩ := h.told hr
  exact ⟨news, hnews, List.count_eq_zero.2 hs⟩

theorem halt (w : World) : w.Tells 1 (w.halt.emit .executionStopped) :=
  ⟨[.executionStopped], ⟨rfl, rfl, by simp⟩, rfl⟩

theorem trans {a b : Nat} (h : w.Tells a w') (h' : w'.Tells b w'') : w.Tells (a + b) w'' := by
  obtain ⟨news, hnews, rfl⟩ := h
  obtain ⟨more, hmore, rfl⟩ := h'
  exact ⟨news ++ more, hnews.trans hmore, List.count_append⟩

end Tells

end World

def Moment.stopsAll (k : Moment) : Bool :=
  match k.stmt with
  | .act (.stop .all) => true
  | _ => false

namespace Machine

/-- How often the move ends the run for all, by a command or by statements. -/
def stops (m : Machine) (move : Move) : Nat :=
  (if move.isStop then 1 else 0) + (m.moveTrace move).countP (·.stopsAll)

def stopsAlong (m : Machine) : List Move → Nat
  | [] => 0
  | move :: rest => m.stops move + (m.move move).stopsAlong rest

/-! ### Turns -/

theorem Path.acted {self : Self} {m n : Machine} {ms : List Moment} (h : Path self m ms n) :
    m.world.Acted n.world :=
  h.edited.acted

theorem Path.countP_stopsAll {self : Self} {m n : Machine} {ms : List Moment}
    (h : Path self m ms n) : ms.countP (·.stopsAll) = 0 := by
  refine List.countP_eq_zero.2 fun k hk hs => h.stmt_ne_stopAll hk ?_
  unfold Moment.stopsAll at hs
  split at hs
  next hstmt => exact hstmt
  · cases hs

variable {m : Machine}

/-- On its way a task tells the host of all it sees, and never that the run has ended. -/
theorem Sound.tells_path {n : Machine} {id : TaskId} {t : Task} {ms : List Moment} (h : m.Sound)
    (ht : m.task? id = some t) (hs : m.isStopped t.token = false)
    (hp : Path ⟨id, t.entity⟩ (m.setTask id ({ · with state := .running })) ms n) :
    m.world.Tells (ms.countP (·.stopsAll)) n.world ∧ n.world.running = true := by
  obtain ⟨hn, hlive⟩ := h.turn_path ht hs hp
  have hrunning : n.world.running = true := hn.tree.running_of_live hlive
  rw [hp.countP_stopsAll]
  exact ⟨.of_acted hp.acted (hp.acted.running ▸ hrunning), hrunning⟩

theorem Sound.tells_polled {n : Machine} {id : TaskId} {ms : List Moment} (h : m.Sound)
    (hp : Polled m id ms n) : m.world.Tells (ms.countP (·.stopsAll)) n.world := by
  cases hp with
  | absent => exact .silent rfl rfl
  | stopped => exact .silent rfl rfl
  | @paused t _ n ht hs hp pause frames =>
    obtain ⟨tasks, yielded, waits, he⟩ := suspend_shape n id pause frames
    rw [he]
    exact (h.tells_path ht hs hp).1
  | @ended t _ n ht hs hp ending =>
    obtain ⟨htells, hrunning⟩ := h.tells_path ht hs hp
    exact htells.trans (.of_acted (acted_finish n t ending) hrunning)
  | @stoppedAll t _ n ht hs hp =>
    have hstop : (n.counted.stopAll.finish t .cancelled).world =
        n.world.halt.emit .executionStopped := world_stopAll n.counted
    rw [hstop, List.countP_append]
    exact (h.tells_path ht hs hp).1.trans (.halt n.world)
  | @stoppedSprite t _ n ht hs hp =>
    obtain ⟨htells, hrunning⟩ := h.tells_path ht hs hp
    rw [List.countP_append]
    exact htells.trans (.of_acted (acted_stopEntity n.counted t.entity) hrunning)

/-! ### Moves -/

theorem sights_of_entities {w w' : World} (h : w'.entities = w.entities) : w'.sights = w.sights :=
  congrArg (List.map Entity.sight) h

theorem Plain.stops {move : Move} (h : m.Plain move) : m.stops move = 0 := by
  simp only [Machine.stops, h.stop, h.trace, Bool.false_eq_true, if_false, List.countP_nil]

theorem Sound.tells_moved {n : Machine} {move : Move} (h : m.Sound) (hm : Moved m move n)
    (hl : move.isLoad = false) : m.world.Tells (m.stops move) n.world := by
  cases hm with
  | aside hp ha =>
    rw [hp.stops]
    exact .silent ha.events (sights_of_entities ha.entities)
  | spawn hp ha hr ls =>
    rw [hp.stops, world_spawnAll]
    exact .silent ha.events (sights_of_entities ha.entities)
  | broadcast name sender hr => exact .of_acted (acted_broadcast m name sender) hr
  | load specs program => cases hl
  | start =>
    rw [world_start]
    exact .silent rfl rfl
  | stop =>
    rw [world_stopAll]
    exact .halt m.world
  | close =>
    rw [world_halt]
    exact .silent rfl rfl
  | @poll id n hp =>
    have htells := (h.dequeue id).tells_polled hp
    have hstops : m.stops (.poll id) = (m.moveTrace (.poll id)).countP (·.stopsAll) :=
      Nat.zero_add _
    rw [hstops]
    exact htells

theorem Sound.tells_move (h : m.Sound) {move : Move} (hl : move.isLoad = false) :
    m.world.Tells (m.stops move) (m.move move).world :=
  h.tells_moved (moved_move m move) hl

/-! ### Runs -/

theorem Sound.tells_after {moves : List Move} (h : m.Sound)
    (hmoves : ∀ move ∈ moves, move.isLoad = false) :
    m.world.Tells (m.stopsAlong moves) (m.after moves).world := by
  induction moves generalizing m with
  | nil => exact .silent rfl rfl
  | cons move rest ih =>
    have hmove := h.tells_move (hmoves move List.mem_cons_self)
    exact hmove.trans (ih (h.move move) fun other ho => hmoves other (List.mem_cons_of_mem move ho))

theorem events_load (m : Machine) (specs : List EntitySpec) (program : Program) :
    (m.load specs program).world.events = m.world.events := by
  simp only [load, World.load, world_halt]
  rfl

/-- Whatever happens, the host is told once for each time that the run is ended for all. -/
theorem Sound.count_after (h : m.Sound) (moves : List Move) :
    (m.after moves).world.events.count .executionStopped =
      m.world.events.count .executionStopped + m.stopsAlong moves := by
  induction moves generalizing m with
  | nil => rfl
  | cons move rest ih =>
    have hmove : (m.move move).world.events.count .executionStopped =
        m.world.events.count .executionStopped + m.stops move := by
      cases hl : move.isLoad with
      | false =>
        obtain ⟨news, hnews, hcount⟩ := h.tells_move hl
        rw [hnews.events, List.count_append, hcount]
      | true =>
        cases move with
        | command command =>
          cases command with
          | loadProgram specs program =>
            show (m.load specs program).world.events.count .executionStopped = _
            rw [events_load]
            rfl
          | _ => cases hl
        | _ => cases hl
    have hrest := ih (h.move move)
    simp only [stopsAlong]
    show ((m.move move).after rest).world.events.count .executionStopped = _
    omega

/-- A host that begins with what is to be seen of the entities, at a start or later, and writes all
patches over its copy has what is on the stage after any moves, until other entities are loaded.
What is placed on the stage is placed at the same point of the canvas. -/
theorem mirror_follows_stage {moves : List Move} (hm : m.Reachable)
    (hmoves : ∀ move ∈ moves, move.isLoad = false) :
    ∃ news, (m.after moves).world.events = m.world.events ++ news ∧
      (m.after moves).world.sights = mirror m.world.sights news ∧
      ∀ id patch, .entityStateChanged id patch ∈ news → patch.Placed := by
  obtain ⟨news, hnews, _⟩ := hm.sound.tells_after hmoves
  exact ⟨news, hnews.events, hnews.sights, hnews.placed⟩

theorem mirror_follows_stage_sample :
    let m := (Machine.new .standard).after (Sample.moves.take 2)
    m.world.sights.map (·.visible) = [true, true] ∧
      (m.after [.poll 1, .poll 2]).world.sights.map (·.visible) = [false, true] ∧
      ∃ news, (m.after [.poll 1, .poll 2]).world.events = m.world.events ++ news ∧
        (m.after [.poll 1, .poll 2]).world.sights = mirror m.world.sights news ∧
        ∀ id patch, .entityStateChanged id patch ∈ news → patch.Placed :=
  ⟨rfl, rfl, mirror_follows_stage ⟨_, _, rfl⟩ (by decide)⟩

end Machine

end SpriteStage
