import SpriteStage.Proofs.Machine.Spawn

/-!
Whom a stop reaches.

A task that may run hangs from the scope of its entity and from the run, so each way to stop reaches
just the tasks it is meant for. A task that has been stopped executes nothing any more: what was
stopped stays so, and no other task gets its number (`ScopeTree.Later`).
-/

namespace SpriteStage

/-- Is the task one of those that a stop statement stops, if `self` executes it? -/
def StopScope.Reaches (self : Self) (t : Task) : StopScope → Prop
  | .all => True
  | .thisScript => False
  | .thisSprite => t.entity = self.entity
  | .otherScriptsInSprite => t.entity = self.entity ∧ t.id ≠ self.task

namespace Machine

/-- The task hangs from the scope of its entity, and the scope from the run. -/
def Attached (m : Machine) (t : Task) : Prop :=
  ∃ scope k, m.scopes.lookup t.entity = some scope ∧ scope = m.run ++ [k] ∧
    t.token = scope ++ [t.id]

variable {m : Machine}

theorem Sound.attached (h : m.Sound) {t : Task} (ht : t ∈ m.tasks)
    (hs : m.isStopped t.token = false) : m.Attached t := by
  obtain ⟨scope, hlookup, htoken⟩ := h.tree.attached t.leaf (List.mem_map_of_mem ht) hs
  obtain ⟨_, k, _, hscope⟩ := h.tree.scope t.entity scope (ScopeTree.mem_of_lookup hlookup)
  exact ⟨scope, k, hlookup, hscope, htoken⟩

/-! ### Once stopped, always stopped -/

theorem Effect.later {self : Self} {n : Machine} (h : Effect self m n) : m.tree.Later n.tree := by
  rcases h.tree with ⟨ids, ht⟩ | ht <;> rw [ht]
  · exact .spawns m.tree ids
  · exact .stopOthers m.tree self.entity self.task

theorem Path.later {self : Self} {n : Machine} {ms : List Moment} (h : Path self m ms n) :
    m.tree.Later n.tree := by
  induction h with
  | refl m => exact .refl m.tree
  | effect he _ ih => exact he.later.trans ih
  | stmt s hs _ ih => exact ih

theorem later_turn {n : Machine} {id : TaskId} {t : Task} {ms : List Moment}
    (hp : Path ⟨id, t.entity⟩ (m.setTask id ({ · with state := .running })) ms n) :
    m.tree.Later n.tree := by
  have htree : (m.setTask id ({ · with state := .running })).tree = m.tree :=
    tree_setTask m id fun _ => rfl
  rw [← htree]
  exact hp.later

theorem Polled.later {n : Machine} {id : TaskId} {ms : List Moment} (h : Polled m id ms n) :
    m.tree.Later n.tree := by
  cases h with
  | absent => exact .refl m.tree
  | stopped =>
    rw [tree_finish]
    exact .remove m.tree _
  | paused ht hs hp =>
    rw [tree_suspend]
    exact later_turn hp
  | @ended t _ n ht hs hp =>
    rw [tree_finish]
    exact (later_turn hp).trans (.remove n.tree t.id)
  | @stoppedAll t _ n ht hs hp =>
    rw [tree_finish, tree_stopAll]
    exact ((later_turn hp).trans (.halt n.tree)).trans (.remove n.tree.halt t.id)
  | @stoppedSprite t _ n ht hs hp =>
    rw [tree_finish, tree_stopEntity]
    exact ((later_turn hp).trans (.stopEntity n.tree t.entity)).trans (.remove _ t.id)

theorem Moved.later {n : Machine} {move : Move} (h : Moved m move n) : m.tree.Later n.tree := by
  have hhalt : m.tree.Later m.halt.tree := by
    rw [tree_halt]
    exact .halt m.tree
  cases h with
  | aside hp ha =>
    rw [ha.tree]
    exact .refl m.tree
  | spawn hp ha hr ls =>
    rw [tree_spawnAll, ha.tree]
    exact .spawns m.tree _
  | broadcast name sender hr =>
    obtain ⟨ids, ht⟩ := tree_broadcast m name sender
    rw [ht]
    exact .spawns m.tree ids
  | load specs program => exact ⟨hhalt.stopped, hhalt.nextTask, hhalt.leaves⟩
  | start =>
    rw [start_eq, tree_spawnAll, tree_opened]
    exact (ScopeTree.Later.start m.tree).trans (.spawns m.tree.start _)
  | stop => exact hhalt
  | close => exact hhalt
  | poll hp => exact hp.later

theorem later_after (m : Machine) (moves : List Move) : m.tree.Later (m.after moves).tree := by
  refine after_invariant (P := fun n => m.tree.Later n.tree) ?_ (.refl m.tree)
  exact fun n move _ hn => hn.trans (moved_move n move).later

/-- A stopped task executes no statement, now or later. -/
theorem Sound.moveTrace_stopped (h : m.Sound) {t : Task} (ht : t ∈ m.tasks)
    (hs : m.isStopped t.token = true) (moves : List Move) (hn : (m.after moves).Sound) :
    (m.after moves).moveTrace (.poll t.id) = [] := by
  refine List.eq_nil_iff_forall_not_mem.2 fun k hk => ?_
  obtain ⟨_, u, hu, hmove, hlive, _⟩ := hn.at_moment hk
  have hid : u.leaf.id = t.leaf.id := (Move.poll.inj hmove).symm
  have hlater := later_after m moves
  -- The task with this number is the old one, so it has been stopped.
  have hleaf : u.leaf = t.leaf := by
    rcases hlater.leaves u.leaf (List.mem_map_of_mem hu) with hold | hnew
    · exact h.tree.eq_of_id_eq hold (List.mem_map_of_mem ht) hid
    · have hlt := (h.tree.leaf t.leaf (List.mem_map_of_mem ht)).1
      rw [hid] at hnew
      exact absurd hlt (Nat.not_lt.2 hnew)
  have hstopped : (m.after moves).isStopped u.leaf.token = true := by
    rw [hleaf]
    exact hlater.stopped t.token hs
  have hlive' : (m.after moves).isStopped u.leaf.token = false := hlive
  rw [hlive'] at hstopped
  cases hstopped

/-! ### Traces hold every statement -/

theorem Path.statements {self : Self} {n : Machine} {ms : List Moment} (h : Path self m ms n) :
    n.statements = m.statements + ms.length := by
  induction h with
  | refl => rfl
  | effect he _ ih => rw [ih, he.frame.2]
  | @stmt m n ms s hs _ ih =>
    rw [ih, List.length_cons]
    show m.statements + 1 + ms.length = _
    omega

theorem statements_finish (m : Machine) (t : Task) (ending : Ending ScriptError) :
    (m.finish t ending).statements = m.statements := by
  obtain ⟨world, stats, he⟩ := finish_shape m t ending
  rw [he]

theorem Polled.statements {n : Machine} {id : TaskId} {ms : List Moment} (h : Polled m id ms n) :
    n.statements = m.statements + ms.length := by
  cases h with
  | absent => rfl
  | stopped => rfl
  | @paused t _ n ht hs hp pause frames =>
    obtain ⟨tasks, yielded, waits, he⟩ := suspend_shape n id pause frames
    rw [he]
    exact hp.statements
  | ended ht hs hp =>
    rw [statements_finish]
    exact hp.statements
  | @stoppedAll t ms n ht hs hp =>
    have hn : n.statements = m.statements + ms.length := hp.statements
    rw [statements_finish, List.length_append]
    show n.statements + 1 = _
    rw [hn, Nat.add_assoc]
    rfl
  | @stoppedSprite t ms n ht hs hp =>
    have hn : n.statements = m.statements + ms.length := hp.statements
    obtain ⟨scopes, nextSerial, stopped, waits, ready, requests, he⟩ :=
      stopEntity_shape n.counted t.entity
    rw [statements_finish, List.length_append, he]
    show n.statements + 1 = _
    rw [hn, Nat.add_assoc]
    rfl

theorem statements_spawnAll (m : Machine) (ls : List Listener) :
    (m.spawnAll ls).statements = m.statements := by
  obtain ⟨tasks, nextTask, stats, ready, he⟩ := spawnAll_shape m ls
  rw [he]

theorem Moved.statements {n : Machine} {move : Move} (h : Moved m move n) :
    n.statements = m.statements + (m.moveTrace move).length := by
  cases h with
  | aside hp ha =>
    rw [hp.trace, ha.statements]
    rfl
  | spawn hp ha hr ls =>
    rw [hp.trace, statements_spawnAll, ha.statements]
    rfl
  | broadcast name sender hr =>
    obtain ⟨world, tasks, nextTask, stats, ready, he⟩ := broadcast_shape m name sender
    rw [he]
    rfl
  | start =>
    obtain ⟨scopes, serial, ho⟩ := opened_shape m
    rw [start_eq, statements_spawnAll, ho]
    rfl
  | poll hp => exact hp.statements
  | _ => rfl

/-! ### The reach of a stop -/

theorem Sound.isStopped_halt (h : m.Sound) {t : Task} (ht : t ∈ m.tasks) :
    m.halt.isStopped t.token = true := by
  have hs := h.tree.isStopped_halt (List.mem_map_of_mem ht)
  rw [← tree_halt] at hs
  exact hs

theorem tasks_stopScope (m : Machine) (self : Self) (scope : StopScope) :
    (m.stopScope self scope).machine.tasks = m.tasks := by
  cases scope with
  | all => rfl
  | thisScript => rfl
  | thisSprite =>
    obtain ⟨scopes, nextSerial, stopped, waits, ready, requests, he⟩ :=
      stopEntity_shape m self.entity
    show (m.stopEntity self.entity).tasks = _
    rw [he]
  | otherScriptsInSprite =>
    obtain ⟨stopped, waits, ready, requests, he⟩ := stopTasks_shape m
      (m.tasks.filter fun t => t.entity == self.entity && t.id != self.task)
    show (m.stopOthers self.entity self.task).tasks = _
    rw [stopOthers, he]

theorem later_stopScope (m : Machine) (self : Self) (scope : StopScope) :
    m.tree.Later (m.stopScope self scope).machine.tree := by
  cases scope with
  | all =>
    show m.tree.Later m.stopAll.tree
    rw [tree_stopAll]
    exact .halt m.tree
  | thisScript => exact .refl m.tree
  | thisSprite =>
    show m.tree.Later (m.stopEntity self.entity).tree
    rw [tree_stopEntity]
    exact .stopEntity m.tree self.entity
  | otherScriptsInSprite =>
    show m.tree.Later (m.stopOthers self.entity self.task).tree
    rw [tree_stopOthers]
    exact .stopOthers m.tree self.entity self.task

/-- Of the tasks that have not been stopped, a stop statement stops just those in its reach. -/
theorem Sound.isStopped_stopScope (h : m.Sound) {self : Self} {l : Leaf} (hl : m.tree.Live l)
    (he : l.entity = self.entity) (scope : StopScope) {t : Task} (ht : t ∈ m.tasks) :
    (m.stopScope self scope).machine.isStopped t.token = true ↔
      m.isStopped t.token = true ∨ scope.Reaches self t := by
  cases hs : m.isStopped t.token with
  | true =>
    have hstopped := (later_stopScope m self scope).stopped t.token hs
    exact ⟨fun _ => .inl rfl, fun _ => hstopped⟩
  | false =>
    have hleaf : t.leaf ∈ m.tree.leaves := List.mem_map_of_mem ht
    simp only [Bool.false_eq_true, false_or]
    cases scope with
    | all => exact ⟨fun _ => trivial, fun _ => h.isStopped_halt ht⟩
    | thisScript =>
      show m.isStopped t.token = true ↔ False
      rw [hs]
      simp
    | thisSprite =>
      obtain ⟨old, hlookup, _⟩ := h.tree.attached l hl.1 hl.2
      rw [he] at hlookup
      have hiff := h.tree.isStopped_stopEntity hlookup hleaf hs
      rw [← tree_stopEntity] at hiff
      exact hiff
    | otherScriptsInSprite =>
      have hiff := h.tree.isStopped_stopOthers self.entity self.task hleaf hs
      rw [← tree_stopOthers] at hiff
      exact hiff

/-- Scripts of an entity that was stopped start again, and can run. -/
theorem Sound.spawn_stopEntity (h : m.Sound) {l : Leaf} (hl : m.tree.Live l) (script : Script) :
    let n := m.stopEntity l.entity
    (n.spawn l.entity script).tasks = n.tasks ++ [n.taskOf ⟨l.entity, script⟩ n.nextTask] ∧
      n.nextTask ∈ (n.spawn l.entity script).ready ∧
      (n.spawn l.entity script).isStopped (n.taskOf ⟨l.entity, script⟩ n.nextTask).token = false := by
  intro n
  have hsound : n.Sound := h.stopEntity hl
  have hacted := acted_stopEntity m l.entity
  have hrunning : n.world.running = true := hacted.running.trans (h.tree.running_of_live hl)
  have hentity : l.entity < n.world.entities.length := by
    obtain ⟨scope, hlookup, _⟩ := h.tree.attached l hl.1 hl.2
    rw [hacted.length]
    exact (h.tree.scope l.entity scope (ScopeTree.mem_of_lookup hlookup)).1
  have hopen := hsound.covered hrunning l.entity hentity
  rw [spawn_of_isOpen hopen]
  exact ⟨rfl, by simp, hsound.isStopped_taskOf hopen (Nat.le_refl n.nextTask)⟩

structure Stops (self : Self) (scope : StopScope) (m n : Machine) : Prop where
  tasks : n.tasks = m.tasks
  stopped : ∀ t ∈ m.tasks,
    n.isStopped t.token = true ↔ m.isStopped t.token = true ∨ scope.Reaches self t
  restart : scope = .thisSprite → ∀ script,
    (n.spawn self.entity script).tasks = n.tasks ++ [n.taskOf ⟨self.entity, script⟩ n.nextTask] ∧
    n.nextTask ∈ (n.spawn self.entity script).ready ∧
    (n.spawn self.entity script).isStopped (n.taskOf ⟨self.entity, script⟩ n.nextTask).token = false

theorem Sound.stops_exec (h : m.Sound) {t : Task} (hl : m.tree.Live t.leaf) (scope : StopScope) :
    Stops ⟨t.id, t.entity⟩ scope m
      (exec ⟨t.id, t.entity⟩ m (.act (.stop scope))).machine := by
  refine ⟨tasks_stopScope m.counted _ scope, fun u hu => ?_, ?_⟩
  · exact h.counted.isStopped_stopScope hl rfl scope hu
  · rintro rfl script
    exact h.counted.spawn_stopEntity hl script

/-- At every statement of every turn, too, a task that may run hangs from the scope of its entity
and from the run. A stopped task executes nothing any more. A stop, load or start command stops all
tasks, and a stop statement those in its reach. -/
theorem stop_reaches_its_scope (hm : m.Reachable) :
    (∀ t ∈ m.tasks, m.isStopped t.token = false → m.Attached t) ∧
    (∀ move, ∀ k ∈ m.moveTrace move, ∀ t ∈ k.machine.tasks,
      k.machine.isStopped t.token = false → k.machine.Attached t) ∧
    (∀ t ∈ m.tasks, m.isStopped t.token = true →
      ∀ moves, (m.after moves).moveTrace (.poll t.id) = []) ∧
    (∀ move, (m.move move).statements = m.statements + (m.moveTrace move).length) ∧
    (∀ t ∈ m.tasks, (m.move (.command .stop)).isStopped t.token = true ∧
      (m.move (.command .start)).isStopped t.token = true ∧
      ∀ specs program,
        (m.move (.command (.loadProgram specs program))).isStopped t.token = true) ∧
    (∀ move, ∀ k ∈ m.moveTrace move, ∃ t ∈ m.tasks, move = .poll t.id ∧
      k.machine.isStopped t.token = false ∧
      ∀ scope, k.stmt = .act (.stop scope) →
        Stops ⟨t.id, t.entity⟩ scope k.machine
          (exec ⟨t.id, t.entity⟩ k.machine k.stmt).machine) := by
  have h := hm.sound
  refine ⟨fun t => h.attached, ?_, ?_, fun move => (moved_move m move).statements, ?_, ?_⟩
  · exact fun move k hk t => (h.at_moment hk).1.attached
  · exact fun t ht hs moves => h.moveTrace_stopped ht hs moves (hm.after moves).sound
  · intro t ht
    have hhalt := h.isStopped_halt ht
    refine ⟨hhalt, ?_, fun _ _ => hhalt⟩
    have hstart : m.start.tree.isStopped t.token = true := by
      rw [start_eq, tree_spawnAll, tree_opened]
      refine (ScopeTree.Later.spawns m.tree.start _).stopped t.token ?_
      exact h.tree.isStopped_start (List.mem_map_of_mem ht)
    exact hstart
  · intro move k hk
    obtain ⟨hsound, t, ht, hmove, _, hlive⟩ := h.at_moment hk
    refine ⟨t, ht, hmove, hlive.2, fun scope hscope => ?_⟩
    rw [hscope]
    exact hsound.stops_exec hlive scope

theorem stop_reaches_its_scope_sample :
    let m := Sample.machine
    let t := m.tasks.get ⟨1, by decide⟩
    (m.moveTrace (.poll 4)).length = 2 ∧ t.id = 2 ∧ m.isStopped t.token = false ∧
      (m.move (.poll 4)).isStopped t.token = true ∧
      (∀ u ∈ m.tasks, (m.move (.command .start)).isStopped u.token = true) ∧
      ∀ moves, ((m.move (.poll 4)).after moves).moveTrace (.poll t.id) = [] := by
  have h := stop_reaches_its_scope Sample.reachable
  have h' := stop_reaches_its_scope (Sample.reachable.move (.poll 4))
  refine ⟨rfl, rfl, rfl, rfl, fun u hu => (h.2.2.2.2.1 u hu).2.1, fun moves => ?_⟩
  exact h'.2.2.1 ((Sample.machine.move (.poll 4)).tasks.get ⟨1, by decide⟩) (List.get_mem _ _) rfl moves

end Machine

end SpriteStage
