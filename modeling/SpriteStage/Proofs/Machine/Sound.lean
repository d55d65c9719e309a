import SpriteStage.Proofs.Machine.Moves
import SpriteStage.Proofs.Machine.Tree
import SpriteStage.Proofs.Message.Listeners

/-!
The invariant of the machine: its scope tree is sound, in a run every entity can start scripts, and
programs and listeners belong to entities that exist.

Every move keeps it (`Sound.move`), so it holds of every reachable machine, and a turn keeps it at
each of its statements, where the task that executes the statement has not been stopped
(`Visited.sound`, `Sound.at_moment`).
-/

namespace SpriteStage.Machine

theorem mem_listeners_registerAll {w : World} {programs : List EntityProgram} {l : Listener}
    (h : l ∈ (registerAll w programs).switchboard.listeners) : l.entity < w.entities.length := by
  have hfold : ∀ (ps : List (EntityId × EntityProgram)) (b : Switchboard),
      l ∈ (ps.foldl (fun b p => b.register p.1 p.2) b).listeners →
      l ∈ b.listeners ∨ ∃ p ∈ ps, l.entity = p.1 := by
    intro ps
    induction ps with
    | nil => exact fun b hl => .inl hl
    | cons p rest ih =>
      intro b hl
      rcases ih (b.register p.1 p.2) hl with hl | ⟨q, hq, hl⟩
      · refine (Switchboard.mem_listeners_register hl).imp_right fun he => ?_
        exact ⟨p, List.mem_cons_self, he⟩
      · exact .inr ⟨q, List.mem_cons_of_mem p hq, hl⟩
  rcases hfold _ _ h with hl | ⟨⟨id, p⟩, hp, he⟩
  · cases hl
  · rw [he]
    exact List.mem_range.1 (List.of_mem_zip hp).1

/-! ### The invariant -/

structure Sound (m : Machine) : Prop where
  tree : m.tree.Sound
  covered : m.tree.Covered
  programs : m.programs.length = m.world.entities.length
  listeners : ∀ l ∈ m.world.switchboard.listeners, l.entity < m.world.entities.length

namespace Sound

variable {m n : Machine}

theorem of_acted (h : m.Sound) (ha : m.world.Acted n.world) (hp : n.programs = m.programs)
    (ht : n.tree.Sound) (hc : n.tree.Covered) : n.Sound where
  tree := ht
  covered := hc
  programs := by
    rw [hp, ha.length]
    exact h.programs
  listeners := by
    obtain ⟨history, hb⟩ := ha.switchboard
    rw [hb, ha.length]
    exact h.listeners

theorem of_tree_eq (h : m.Sound) (ha : m.world.Acted n.world) (hp : n.programs = m.programs)
    (ht : n.tree = m.tree) : n.Sound :=
  h.of_acted ha hp (ht ▸ h.tree) (ht ▸ h.covered)

theorem new (options : Options) : (Machine.new options).Sound where
  tree :=
    { running := rfl
      run_issued := ⟨0, Nat.zero_lt_one, rfl⟩
      scope := nofun
      scope_inj := nofun
      stopped_issued := by
        intro t ht
        cases List.mem_singleton.1 ht
        exact Nat.zero_lt_one
      leaf := nofun
      leaves_apart := .nil
      attached := nofun }
  covered := nofun
  programs := rfl
  listeners := nofun

/-! ### Turns -/

theorem spawnAll (h : m.Sound) (ls : List Listener) : (m.spawnAll ls).Sound := by
  refine h.of_acted (world_spawnAll m ls ▸ .refl m.world) (programs_spawnAll m ls) ?_ ?_
  · rw [tree_spawnAll]
    exact h.tree.spawns _
  · rw [tree_spawnAll]
    exact h.covered.spawns _

theorem effect {self : Self} (h : m.Sound) (he : Effect self m n) : n.Sound := by
  refine h.of_acted he.acted he.frame.1 ?_ ?_
  · rcases he.tree with ⟨ids, ht⟩ | ht <;> rw [ht]
    · exact h.tree.spawns ids
    · exact h.tree.stopOthers self.entity self.task
  · rcases he.tree with ⟨ids, ht⟩ | ht <;> rw [ht]
    · exact h.covered.spawns ids
    · exact h.covered.stopOthers h.tree self.entity self.task

theorem live_effect {self : Self} {l : Leaf} (h : m.Sound) (he : Effect self m n)
    (hl : m.tree.Live l) (hid : l.id = self.task) : n.tree.Live l := by
  rcases he.tree with ⟨ids, ht⟩ | ht <;> rw [ht]
  · exact hl.spawns ids
  · rw [← hid]
    exact hl.stopOthers h.tree self.entity

theorem counted (h : m.Sound) : m.counted.Sound :=
  ⟨h.tree, h.covered, h.programs, h.listeners⟩

/-- A task on its way keeps the machine sound and is not stopped by what it does itself. -/
theorem path {self : Self} {ms : List Moment} {l : Leaf} (h : m.Sound) (hp : Path self m ms n)
    (hl : m.tree.Live l) (hid : l.id = self.task) : n.Sound ∧ n.tree.Live l := by
  induction hp with
  | refl => exact ⟨h, hl⟩
  | effect he _ ih => exact ih (h.effect he) (h.live_effect he hl hid)
  | stmt s hs _ ih => exact ih h.counted hl

theorem finish (h : m.Sound) (t : Task) (ending : Ending ScriptError) : (m.finish t ending).Sound := by
  refine h.of_acted (acted_finish m t ending) ?_ ?_ ?_
  · obtain ⟨world, stats, he⟩ := finish_shape m t ending
    rw [he]
  · rw [tree_finish]
    exact h.tree.remove t.id
  · rw [tree_finish]
    exact h.covered

theorem suspend (h : m.Sound) (id : TaskId) (pause : Pause) (frames : List Frame) :
    (m.suspend id pause frames).Sound := by
  have ht := tree_suspend m id pause frames
  obtain ⟨tasks, yielded, waits, he⟩ := suspend_shape m id pause frames
  rw [he] at ht ⊢
  exact h.of_tree_eq (.refl m.world) rfl ht

theorem halt (h : m.Sound) : m.halt.Sound where
  tree := by
    rw [tree_halt]
    exact h.tree.halt
  covered := by
    rw [tree_halt]
    exact nofun
  programs := by
    rw [world_halt]
    exact h.programs
  listeners := by
    rw [world_halt]
    exact h.listeners

theorem stopAll (h : m.Sound) : m.stopAll.Sound :=
  ⟨h.halt.tree, h.halt.covered, h.halt.programs, h.halt.listeners⟩

theorem stopEntity (h : m.Sound) {l : Leaf} (hl : m.tree.Live l) : (m.stopEntity l.entity).Sound := by
  obtain ⟨scope, hlookup, _⟩ := h.tree.attached l hl.1 hl.2
  refine h.of_acted (acted_stopEntity m l.entity) ?_ ?_ ?_
  · obtain ⟨scopes, nextSerial, stopped, waits, ready, requests, he⟩ := stopEntity_shape m l.entity
    rw [he]
  · rw [tree_stopEntity]
    exact h.tree.stopEntity hlookup
  · rw [tree_stopEntity]
    exact h.covered.stopEntity h.tree hlookup

/-- A task that begins its turn is not stopped anywhere on its way. -/
theorem turn_path {id : TaskId} {t : Task} {ms : List Moment} (h : m.Sound)
    (ht : m.task? id = some t) (hs : m.isStopped t.token = false)
    (hp : Path ⟨id, t.entity⟩ (m.setTask id ({ · with state := .running })) ms n) :
    n.Sound ∧ n.tree.Live t.leaf := by
  obtain ⟨hmem, hid⟩ := mem_of_task? ht
  have htree : (m.setTask id ({ · with state := .running })).tree = m.tree :=
    tree_setTask m id fun _ => rfl
  have hset : (m.setTask id ({ · with state := .running })).Sound :=
    h.of_tree_eq (.refl m.world) rfl htree
  refine hset.path hp ?_ hid
  rw [htree]
  exact ⟨List.mem_map_of_mem hmem, hs⟩

theorem polled {id : TaskId} {ms : List Moment} (h : m.Sound) (hp : Polled m id ms n) : n.Sound := by
  cases hp with
  | absent => exact h
  | stopped => exact h.finish _ _
  | paused ht hs hp pause frames => exact (h.turn_path ht hs hp).1.suspend id pause frames
  | ended ht hs hp ending => exact (h.turn_path ht hs hp).1.finish _ ending
  | stoppedAll ht hs hp =>
    have hn := (h.turn_path ht hs hp).1
    exact hn.counted.stopAll.finish _ .cancelled
  | stoppedSprite ht hs hp =>
    obtain ⟨hn, hlive⟩ := h.turn_path ht hs hp
    exact (hn.counted.stopEntity hlive).finish _ .cancelled

/-! ### Commands -/

theorem load (h : m.Sound) (specs : List EntitySpec) (program : Program) :
    (m.load specs program).Sound := by
  have htree : (m.load specs program).tree = m.tree.load specs.length := by
    have hhalt := tree_halt m
    simp only [Machine.tree, ScopeTree.halt, ScopeTree.stop, ScopeTree.mk.injEq] at hhalt
    simp only [Machine.load, Machine.tree, World.load, List.length_map, ScopeTree.load,
      ScopeTree.halt, ScopeTree.stop, hhalt]
  have hcovered : (m.tree.load specs.length).Covered := by
    intro hrunning
    cases hrunning
  have hlisteners : ∀ l ∈ (m.load specs program).world.switchboard.listeners,
      l.entity < (m.load specs program).world.entities.length := by
    intro l hl
    cases hl
  refine ⟨htree ▸ h.tree.load specs.length, htree ▸ hcovered, ?_, hlisteners⟩
  simp only [Machine.load, World.load, List.length_append, List.length_take, List.length_replicate,
    List.length_map]
  omega

theorem start (h : m.Sound) : m.start.Sound := by
  obtain ⟨hsound, hcovered⟩ := h.tree.start
  rw [start_eq]
  refine spawnAll ⟨?_, ?_, ?_, ?_⟩ _
  · rw [tree_opened]
    exact hsound
  · rw [tree_opened]
    exact hcovered
  · obtain ⟨scopes, serial, ho⟩ := opened_shape m
    rw [ho]
    exact h.programs
  · obtain ⟨scopes, serial, ho⟩ := opened_shape m
    rw [ho]
    exact fun l hl => mem_listeners_registerAll (w := m.world.halt.beginRun) hl

theorem aside (h : m.Sound) (ha : m.Aside n) : n.Sound where
  tree := ha.tree ▸ h.tree
  covered := ha.tree ▸ h.covered
  programs := by
    rw [ha.programs, ha.entities]
    exact h.programs
  listeners := by
    intro l hl
    rw [ha.entities]
    rcases ha.listeners l hl with hl | hl
    · exact h.listeners l hl
    · rw [h.programs] at hl
      exact hl

/-! ### Moves -/

theorem dequeue (h : m.Sound) (id : TaskId) : (m.dequeue id).Sound :=
  ⟨h.tree, h.covered, h.programs, h.listeners⟩

theorem moved {move : Move} (h : m.Sound) (hm : Moved m move n) : n.Sound := by
  cases hm with
  | aside hp ha => exact h.aside ha
  | spawn hp ha hr ls => exact (h.aside ha).spawnAll ls
  | broadcast name sender hr =>
    have he : Effect ⟨0, sender⟩ m (m.broadcast name sender) := .broadcast m name
    exact h.effect he
  | load specs program => exact h.load specs program
  | start => exact h.start
  | stop => exact h.stopAll
  | close => exact h.halt
  | poll hp => exact (h.dequeue _).polled hp

theorem move (h : m.Sound) (move : Move) : (m.move move).Sound :=
  h.moved (moved_move m move)

end Sound

theorem Reachable.sound {m : Machine} (h : m.Reachable) : m.Sound :=
  h.invariant Sound.new fun _ move hn => hn.move move

theorem Reachable.sound_invariant {m : Machine} {P : Machine → Prop} (h : m.Reachable)
    (hnew : ∀ options, P (.new options)) (hstep : ∀ n move, Sound n → P n → P (n.move move)) :
    P m := by
  have hboth : m.Sound ∧ P m := by
    apply h.invariant (P := fun n => n.Sound ∧ P n)
    · exact fun options => ⟨Sound.new options, hnew options⟩
    · rintro n move ⟨hsound, hn⟩
      exact ⟨hsound.move move, hstep n move hsound hn⟩
  exact hboth.2

/-! ### Machines in the middle of a turn -/

/-- The machine is reachable, or a task of a reachable one is about to execute a statement in it. -/
def Visited (n : Machine) : Prop :=
  n.Reachable ∨ ∃ m move s, Reachable m ∧ ⟨n, s⟩ ∈ m.moveTrace move

theorem Sound.at_moment {m : Machine} {move : Move} {k : Moment} (h : m.Sound)
    (hk : k ∈ m.moveTrace move) :
    k.machine.Sound ∧ ∃ t ∈ m.tasks, move = .poll t.id ∧ m.isStopped t.token = false ∧
      k.machine.tree.Live t.leaf := by
  obtain ⟨id, t, ks, rfl, ht, hs, hp⟩ := turn_of_mem_moveTrace hk
  obtain ⟨hsound, hlive⟩ := (h.dequeue id).turn_path ht hs hp
  obtain ⟨hmem, hid⟩ := mem_of_task? ht
  exact ⟨hsound, t, hmem, hid ▸ rfl, hs, hlive⟩

theorem Visited.sound {n : Machine} (h : n.Visited) : n.Sound := by
  rcases h with h | ⟨m, move, s, hm, hk⟩
  · exact h.sound
  · exact (hm.sound.at_moment hk).1

end SpriteStage.Machine
