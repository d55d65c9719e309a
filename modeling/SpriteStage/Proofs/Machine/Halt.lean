import SpriteStage.Proofs.Machine.News

/-!
A run that has ended stays ended until the next one begins.

In between, a task that has its turn only leaves, no task starts, nothing that scripts can change
changes, and the host hears of nothing but its own stop commands.
-/

namespace SpriteStage

/-- The worlds agree in all that scripts can change, and in the messages sent. -/
structure World.Unmoved (w w' : World) : Prop where
  entities : w'.entities = w.entities
  globals : w'.globals = w.globals
  history : w'.switchboard.history = w.switchboard.history

namespace Machine

/-- No run has begun and no task has started, and the host was told `stops` times, and nothing
else, that the run has ended. -/
structure Hushed (m : Machine) (stops : Nat) (n : Machine) : Prop where
  running : n.world.running = false
  nextTask : n.nextTask = m.nextTask
  spawned : n.stats.spawned = m.stats.spawned
  tasks : n.tasks.Sublist m.tasks
  events : n.world.events = m.world.events ++ List.replicate stops .executionStopped

namespace Hushed

variable {m n l : Machine}

theorem refl (hr : m.world.running = false) : m.Hushed 0 m :=
  ⟨hr, rfl, rfl, .refl m.tasks, (List.append_nil m.world.events).symm⟩

theorem trans {a b : Nat} (h : m.Hushed a n) (h' : n.Hushed b l) : m.Hushed (a + b) l where
  running := h'.running
  nextTask := h'.nextTask.trans h.nextTask
  spawned := h'.spawned.trans h.spawned
  tasks := h'.tasks.trans h.tasks
  events := by
    rw [h'.events, h.events, List.append_assoc, List.replicate_append_replicate]

end Hushed

/-! ### One turn -/

variable {m : Machine}

theorem Sound.isStopped_of_halted (h : m.Sound) (hr : m.world.running = false) {t : Task}
    (ht : t ∈ m.tasks) : m.isStopped t.token = true := by
  cases hs : m.isStopped t.token with
  | true => rfl
  | false =>
    have hlive : m.tree.Live t.leaf := ⟨List.mem_map_of_mem ht, hs⟩
    have hrunning : m.world.running = true := h.tree.running_of_live hlive
    rw [hr] at hrunning
    cases hrunning

/-- A turn that comes after the run has ended executes nothing and only takes the task out. -/
theorem Sound.polled_halted {n : Machine} {id : TaskId} {ms : List Moment} (h : m.Sound)
    (hr : m.world.running = false) (hp : Polled m id ms n) :
    ms = [] ∧ (n = m ∨ ∃ t, n = m.finish t .cancelled) := by
  have hstopped : ∀ {t : Task}, m.task? id = some t → m.isStopped t.token ≠ false := by
    intro t ht
    rw [h.isStopped_of_halted hr (mem_of_task? ht).1]
    exact Bool.noConfusion
  cases hp with
  | absent => exact ⟨rfl, .inl rfl⟩
  | stopped => exact ⟨rfl, .inr ⟨_, rfl⟩⟩
  | paused ht hs => exact absurd hs (hstopped ht)
  | ended ht hs => exact absurd hs (hstopped ht)
  | stoppedAll ht hs => exact absurd hs (hstopped ht)
  | stoppedSprite ht hs => exact absurd hs (hstopped ht)

theorem Sound.hushed_polled {n : Machine} {id : TaskId} {ms : List Moment} (h : m.Sound)
    (hr : m.world.running = false) (hp : Polled m id ms n) : m.Hushed 0 n ∧ n.world = m.world := by
  rcases (h.polled_halted hr hp).2 with rfl | ⟨t, rfl⟩
  · exact ⟨.refl hr, rfl⟩
  · refine ⟨⟨hr, rfl, rfl, List.filter_sublist, ?_⟩, rfl⟩
    exact (List.append_nil m.world.events).symm

/-! ### One move -/

theorem Aside.hushed {n : Machine} (h : m.Aside n) (hr : m.world.running = false) :
    m.Hushed 0 n ∧ m.world.Unmoved n.world := by
  have hrunning : n.world.running = m.world.running := congrArg ScopeTree.running h.tree
  have hnext : n.nextTask = m.nextTask := congrArg ScopeTree.nextTask h.tree
  have htasks : n.tasks.Sublist m.tasks := h.tasks ▸ .refl n.tasks
  have hevents : n.world.events = m.world.events ++ [] :=
    h.events.trans (List.append_nil m.world.events).symm
  exact ⟨⟨hrunning.trans hr, hnext, by rw [h.stats], htasks, hevents⟩,
    ⟨h.entities, h.globals, h.history⟩⟩

theorem hushed_halt (m : Machine) : m.Hushed 0 m.halt ∧ m.world.Unmoved m.halt.world := by
  have hworld := world_halt m
  refine ⟨⟨?_, rfl, rfl, .refl m.tasks, ?_⟩, ?_⟩ <;> rw [hworld]
  · rfl
  · exact (List.append_nil m.world.events).symm
  · exact ⟨rfl, rfl, rfl⟩

theorem hushed_stopAll (m : Machine) : m.Hushed 1 m.stopAll ∧ m.world.Unmoved m.stopAll.world := by
  have hworld := world_stopAll m
  refine ⟨⟨?_, rfl, rfl, .refl m.tasks, ?_⟩, ?_⟩ <;> rw [hworld]
  · rfl
  · rfl
  · exact ⟨rfl, rfl, rfl⟩

theorem Sound.hushed_moved {n : Machine} {move : Move} (h : m.Sound) (hr : m.world.running = false)
    (hm : Moved m move n) (hs : move.isStart = false) :
    m.Hushed (if move.isStop then 1 else 0) n ∧ (move.isLoad = false → m.world.Unmoved n.world) := by
  have hnot : m.world.running ≠ true := by simp [hr]
  cases hm with
  | aside hp ha =>
    rw [hp.stop]
    exact (ha.hushed hr).imp_right fun hworld _ => hworld
  | spawn _ _ hrun => exact absurd hrun hnot
  | broadcast _ _ hrun => exact absurd hrun hnot
  | load specs program =>
    have hevents := (events_load m specs program).trans (List.append_nil m.world.events).symm
    exact ⟨⟨rfl, rfl, rfl, .refl m.tasks, hevents⟩, nofun⟩
  | start => cases hs
  | stop => exact (hushed_stopAll m).imp_right fun hworld _ => hworld
  | close => exact (hushed_halt m).imp_right fun hworld _ => hworld
  | @poll id n hp =>
    obtain ⟨hpoll, hworld⟩ := (h.dequeue id).hushed_polled hr hp
    refine ⟨⟨hpoll.running, hpoll.nextTask, hpoll.spawned, hpoll.tasks, hpoll.events⟩, fun _ => ?_⟩
    rw [hworld]
    exact ⟨rfl, rfl, rfl⟩

theorem Sound.hushed_move (h : m.Sound) (hr : m.world.running = false) {move : Move}
    (hs : move.isStart = false) :
    m.Hushed (if move.isStop then 1 else 0) (m.move move) ∧
      (move.isLoad = false → m.world.Unmoved (m.move move).world) :=
  h.hushed_moved hr (moved_move m move) hs

/-! ### Many moves -/

theorem Sound.hushed_after {moves : List Move} (h : m.Sound) (hr : m.world.running = false)
    (hmoves : ∀ move ∈ moves, move.isStart = false) :
    m.Hushed (moves.countP (·.isStop)) (m.after moves) := by
  induction moves generalizing m with
  | nil => exact .refl hr
  | cons move rest ih =>
    have hmove := (h.hushed_move hr (hmoves move List.mem_cons_self)).1
    have hrest := ih (h.move move) hmove.running fun other ho =>
      hmoves other (List.mem_cons_of_mem move ho)
    rw [List.countP_cons, Nat.add_comm]
    exact hmove.trans hrest

/-- Whoever executes the statement that ends the run does nothing after it. -/
theorem Polled.stopAll {n l : Machine} {id : TaskId} {ms : List Moment} (h : Polled m id ms l)
    (hn : ⟨n, .act (.stop .all)⟩ ∈ ms) :
    l.world = n.world.halt.emit .executionStopped ∧ l.nextTask = n.nextTask := by
  cases h with
  | absent => cases hn
  | stopped => cases hn
  | paused ht hs hp => exact absurd rfl (hp.stmt_ne_stopAll hn)
  | ended ht hs hp => exact absurd rfl (hp.stmt_ne_stopAll hn)
  | stoppedAll ht hs hp =>
    rcases List.mem_append.1 hn with hn | hn
    · exact absurd rfl (hp.stmt_ne_stopAll hn)
    · cases List.mem_singleton.1 hn
      exact ⟨world_stopAll n.counted, rfl⟩
  | stoppedSprite ht hs hp =>
    rcases List.mem_append.1 hn with hn | hn
    · exact absurd rfl (hp.stmt_ne_stopAll hn)
    · cases List.mem_singleton.1 hn

theorem Moved.stopAll {n l : Machine} {move : Move} (h : Moved m move l)
    (hn : ⟨n, .act (.stop .all)⟩ ∈ m.moveTrace move) :
    l.world = n.world.halt.emit .executionStopped ∧ l.nextTask = n.nextTask := by
  cases h with
  | poll hp => exact hp.stopAll hn
  | aside hp _ | spawn hp _ _ _ =>
    rw [hp.trace] at hn
    cases hn
  | _ => cases hn

theorem Sound.moveTrace_halted (h : m.Sound) (hr : m.world.running = false) (move : Move) :
    m.moveTrace move = [] := by
  have hm := moved_move m move
  generalize m.move move = n at hm
  cases hm with
  | poll hp => exact ((h.dequeue _).polled_halted hr hp).1
  | aside hp _ | spawn hp _ _ _ => exact hp.trace
  | _ => rfl

/-- A stop command, a load command and a script can end the run, the script by the last statement
of its turn. From then on to the next start no statement is executed and no task starts, only a
load command changes what scripts can change, and the host hears of its own stop commands alone.
In all, it hears of as many ends as there have been stops. -/
theorem halted_until_start (hm : m.Reachable) :
    (m.move (.command .stop)).world.running = false ∧
    (∀ specs program, (m.move (.command (.loadProgram specs program))).world.running = false) ∧
    (∀ move n, ⟨n, .act (.stop .all)⟩ ∈ m.moveTrace move →
      (m.move move).world = n.world.halt.emit .executionStopped ∧
        (m.move move).nextTask = n.nextTask) ∧
    (m.world.running = false → ∀ moves, (∀ move ∈ moves, move.isStart = false) →
      m.Hushed (moves.countP (·.isStop)) (m.after moves) ∧
      ∀ move, (m.after moves).moveTrace move = [] ∧
        (move.isStart = false → move.isLoad = false →
          (m.after moves).world.Unmoved ((m.after moves).move move).world)) ∧
    ∀ moves, (m.after moves).world.events.count .executionStopped =
      m.world.events.count .executionStopped + m.stopsAlong moves := by
  refine ⟨?_, fun _ _ => rfl, fun move _ => (moved_move m move).stopAll, ?_, hm.sound.count_after⟩
  · rw [show (m.move (.command .stop)).world = _ from world_stopAll m]
    rfl
  · intro hr moves hmoves
    have hhushed := hm.sound.hushed_after hr hmoves
    have hsound := (hm.after moves).sound
    refine ⟨hhushed, fun move => ⟨hsound.moveTrace_halted hhushed.running move, ?_⟩⟩
    exact fun hstart => (hsound.hushed_move hhushed.running hstart).2

theorem halted_until_start_sample :
    let m := Sample.machine.move (.poll 3)
    let moves : List Move := [.poll 4, .resume, .command .stop, .broadcast "go" 0, .poll 1, .reach 50]
    m.world.running = false ∧ m.tasks.length = 3 ∧ m.Hushed 1 (m.after moves) ∧
      (m.after moves).world.Unmoved ((m.after moves).move (.poll 2)).world := by
  have h := (halted_until_start (Sample.reachable.move (.poll 3))).2.2.2.1 rfl
    [.poll 4, .resume, .command .stop, .broadcast "go" 0, .poll 1, .reach 50] (by decide)
  exact ⟨rfl, rfl, h.1, (h.2 (.poll 2)).2 rfl rfl⟩

end Machine

end SpriteStage
