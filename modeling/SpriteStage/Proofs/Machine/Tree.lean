import SpriteStage.Machine.Command
import SpriteStage.Proofs.Machine.ScopeTree
import SpriteStage.Proofs.Machine.Trace

/-!
The scope tree of a machine.

Each operation of the machine does to its tree what the operation of the same name does to trees,
and to its world nothing but what a script may do. So facts about who may run are proved of trees,
and facts about what the host sees of worlds.
-/

namespace SpriteStage

def Task.leaf (t : Task) : Leaf :=
  ⟨t.id, t.entity, t.token⟩

namespace Machine

def tree (m : Machine) : ScopeTree where
  running := m.world.running
  size := m.world.entities.length
  run := m.run
  scopes := m.scopes
  stopped := m.stopped
  nextSerial := m.nextSerial
  nextTask := m.nextTask
  leaves := m.tasks.map Task.leaf

theorem tree_isStopped (m : Machine) (t : Token) : m.tree.isStopped t = m.isStopped t := rfl

/-! ### Waking and stopping -/

theorem wake_shape (m : Machine) (ended : List Wait) :
    ∃ waits ready requests, m.wake ended =
      { m with waits, ready, world := { m.world with requests } } := by
  have hclose : ∀ (tickets : List Nat) (w : World),
      ∃ requests, tickets.foldl World.closeRequest w = { w with requests } := by
    intro tickets
    induction tickets with
    | nil => exact fun w => ⟨w.requests, rfl⟩
    | cons ticket rest ih => exact fun w => ih (w.closeRequest ticket)
  obtain ⟨requests, hw⟩ := hclose (ended.filterMap (·.ticket)) m.world
  exact ⟨_, _, requests, by rw [wake, hw]⟩

theorem tree_wake (m : Machine) (ended : List Wait) : (m.wake ended).tree = m.tree := by
  obtain ⟨waits, ready, requests, he⟩ := wake_shape m ended
  rw [he]
  rfl

theorem tree_stop (m : Machine) (t : Token) : (m.stop t).tree = m.tree.stop t :=
  tree_wake _ _

theorem tree_halt (m : Machine) : m.halt.tree = m.tree.halt :=
  tree_stop { m with world := m.world.halt } m.run

theorem world_halt (m : Machine) : m.halt.world = m.world.halt := by
  -- No request is left that could be closed.
  have hclose : ∀ (tickets : List Nat) (w : World), w.requests = [] →
      tickets.foldl World.closeRequest w = w := by
    intro tickets
    induction tickets with
    | nil => exact fun w _ => rfl
    | cons ticket rest ih =>
      intro w hw
      have he : w.closeRequest ticket = w := by
        cases w
        simp_all [World.closeRequest]
      rw [List.foldl_cons, he]
      exact ih w hw
  exact hclose _ m.world.halt rfl

theorem tree_stopAll (m : Machine) : m.stopAll.tree = m.tree.halt :=
  tree_halt m

theorem world_stopAll (m : Machine) : m.stopAll.world = m.world.halt.emit .executionStopped :=
  congrArg (World.emit · .executionStopped) (world_halt m)

theorem stopEntity_shape (m : Machine) (id : EntityId) :
    ∃ scopes nextSerial stopped waits ready requests, m.stopEntity id =
      { m with scopes, nextSerial, stopped, waits, ready, world := { m.world with requests } } := by
  unfold stopEntity
  split
  next old _ =>
    obtain ⟨waits, ready, requests, he⟩ := wake_shape { m.openScope id with stopped := old :: m.stopped }
      (m.waits.filter { m.openScope id with stopped := old :: m.stopped }.isStoppedWait)
    exact ⟨_, _, _, waits, ready, requests, he⟩
  · exact ⟨_, _, m.stopped, m.waits, m.ready, m.world.requests, rfl⟩

theorem tree_stopEntity (m : Machine) (id : EntityId) :
    (m.stopEntity id).tree = m.tree.stopEntity id := by
  unfold stopEntity ScopeTree.stopEntity
  rw [show m.tree.scopes = m.scopes from rfl]
  cases m.scopes.lookup id with
  | none => rfl
  | some old => exact tree_stop (m.openScope id) old

theorem edited_stopEntity {speech : Bool} (m : Machine) (id : EntityId) :
    m.world.Edited speech true (m.stopEntity id).world := by
  obtain ⟨scopes, nextSerial, stopped, waits, ready, requests, he⟩ := stopEntity_shape m id
  rw [he]
  exact .requests m.world rfl requests m.world.nextTicket

theorem acted_stopEntity (m : Machine) (id : EntityId) :
    m.world.Acted (m.stopEntity id).world :=
  World.Edited.acted (edited_stopEntity m id : m.world.Edited false true _)

theorem stopTasks_shape (m : Machine) (ts : List Task) :
    ∃ stopped waits ready requests, ts.foldl (fun m t => m.stop t.token) m =
      { m with stopped, waits, ready, world := { m.world with requests } } := by
  induction ts generalizing m with
  | nil => exact ⟨m.stopped, m.waits, m.ready, m.world.requests, rfl⟩
  | cons t rest ih =>
    obtain ⟨waits, ready, requests, hstop⟩ := wake_shape { m with stopped := t.token :: m.stopped }
      (m.waits.filter { m with stopped := t.token :: m.stopped }.isStoppedWait)
    obtain ⟨stopped, waits', ready', requests', hrest⟩ := ih (m.stop t.token)
    refine ⟨stopped, waits', ready', requests', hrest.trans ?_⟩
    rw [show m.stop t.token = _ from hstop]

theorem tree_stopTasks (m : Machine) (ts : List Task) :
    (ts.foldl (fun m t => m.stop t.token) m).tree =
      (ts.map Task.leaf).foldl (fun s l => s.stop l.token) m.tree := by
  induction ts generalizing m with
  | nil => rfl
  | cons t rest ih =>
    rw [List.foldl_cons, ih, tree_stop]
    rfl

theorem tree_stopOthers (m : Machine) (id : EntityId) (except : TaskId) :
    (m.stopOthers id except).tree = m.tree.stopOthers id except := by
  have hleaves : m.tree.leaves.filter (fun l => l.entity == id && l.id != except) =
      (m.tasks.filter fun t => t.entity == id && t.id != except).map Task.leaf :=
    List.filter_map
  rw [stopOthers, tree_stopTasks, ScopeTree.stopOthers, hleaves]

theorem edited_stopOthers {speech : Bool} (m : Machine) (id : EntityId) (except : TaskId) :
    m.world.Edited speech true (m.stopOthers id except).world := by
  obtain ⟨stopped, waits, ready, requests, he⟩ := stopTasks_shape m
    (m.tasks.filter fun t => t.entity == id && t.id != except)
  rw [stopOthers, he]
  exact .requests m.world rfl requests m.world.nextTicket

/-! ### Starting and ending tasks -/

theorem spawn_shape (m : Machine) (id : EntityId) (script : Script) :
    ∃ tasks nextTask stats ready, m.spawn id script = { m with tasks, nextTask, stats, ready } := by
  unfold spawn
  split
  · exact ⟨m.tasks, m.nextTask, m.stats, m.ready, rfl⟩
  · split
    · exact ⟨m.tasks, m.nextTask, m.stats, m.ready, rfl⟩
    · exact ⟨_, _, _, _, rfl⟩

theorem tree_spawn (m : Machine) (id : EntityId) (script : Script) :
    (m.spawn id script).tree = m.tree.spawn id := by
  unfold spawn ScopeTree.spawn
  rw [show m.tree.scopes = m.scopes from rfl]
  cases m.scopes.lookup id with
  | none => rfl
  | some scope =>
    cases hs : m.isStopped scope with
    | true => simp [tree_isStopped, hs]
    | false =>
      simp only [tree_isStopped, hs, Bool.false_eq_true, if_false]
      simp [tree, Task.leaf]

theorem spawnAll_shape (m : Machine) (ls : List Listener) :
    ∃ tasks nextTask stats ready, m.spawnAll ls = { m with tasks, nextTask, stats, ready } := by
  induction ls generalizing m with
  | nil => exact ⟨m.tasks, m.nextTask, m.stats, m.ready, rfl⟩
  | cons l rest ih =>
    obtain ⟨tasks, nextTask, stats, ready, hspawn⟩ := spawn_shape m l.entity l.script
    obtain ⟨tasks', nextTask', stats', ready', hrest⟩ := ih (m.spawn l.entity l.script)
    refine ⟨tasks', nextTask', stats', ready', hrest.trans ?_⟩
    rw [hspawn]

theorem world_spawnAll (m : Machine) (ls : List Listener) : (m.spawnAll ls).world = m.world := by
  obtain ⟨tasks, nextTask, stats, ready, he⟩ := spawnAll_shape m ls
  rw [he]

theorem programs_spawnAll (m : Machine) (ls : List Listener) :
    (m.spawnAll ls).programs = m.programs := by
  obtain ⟨tasks, nextTask, stats, ready, he⟩ := spawnAll_shape m ls
  rw [he]

theorem tree_spawnAll (m : Machine) (ls : List Listener) :
    (m.spawnAll ls).tree = (ls.map (·.entity)).foldl ScopeTree.spawn m.tree := by
  induction ls generalizing m with
  | nil => rfl
  | cons l rest ih =>
    show ((m.spawn l.entity l.script).spawnAll rest).tree = _
    rw [ih, tree_spawn]
    rfl

theorem tree_setTask (m : Machine) (id : TaskId) {f : Task → Task} (hf : ∀ t, (f t).leaf = t.leaf) :
    (m.setTask id f).tree = m.tree := by
  have hleaves : (m.setTask id f).tasks.map Task.leaf = m.tasks.map Task.leaf := by
    simp only [setTask, List.map_map]
    refine List.map_congr_left fun t _ => ?_
    simp only [Function.comp_apply]
    split
    · exact hf t
    · rfl
  unfold tree
  rw [hleaves]
  rfl

theorem finish_shape (m : Machine) (t : Task) (ending : Ending ScriptError) :
    ∃ world stats, m.finish t ending =
      { m with tasks := m.tasks.filter (·.id != t.id), world, stats } := by
  cases ending with
  | completed | cancelled => exact ⟨_, _, rfl⟩
  | failed e =>
    simp only [finish]
    split <;> exact ⟨_, _, rfl⟩

theorem acted_finish (m : Machine) (t : Task) (ending : Ending ScriptError) :
    m.world.Acted (m.finish t ending).world := by
  cases ending with
  | completed | cancelled => exact .refl m.world
  | failed e =>
    simp only [finish]
    split
    next hr =>
      simp only [World.reportFailure]
      split
      · exact .refl m.world
      · have hn : m.world.Acted (m.world.notify (.runtimeError (some t.entity) e.message)) :=
          .notify m.world rfl
        rw [World.notify, if_pos hr] at hn
        exact hn.trans (.unseen rfl ⟨_, rfl⟩ rfl rfl)
    · exact .refl m.world

theorem tree_finish (m : Machine) (t : Task) (ending : Ending ScriptError) :
    (m.finish t ending).tree = m.tree.remove t.id := by
  have ha := acted_finish m t ending
  obtain ⟨world, stats, he⟩ := finish_shape m t ending
  rw [he] at ha ⊢
  have hrunning : world.running = m.world.running := ha.running
  have hlength : world.entities.length = m.world.entities.length := ha.length
  simp only [tree, ScopeTree.remove, hrunning, hlength, List.filter_map]
  rfl

theorem suspend_shape (m : Machine) (id : TaskId) (pause : Pause) (frames : List Frame) :
    ∃ tasks yielded waits, m.suspend id pause frames = { m with tasks, yielded, waits } := by
  cases pause with
  | yield => exact ⟨_, _, m.waits, rfl⟩
  | sleep span => exact ⟨_, m.yielded, _, rfl⟩
  | mouse ticket => exact ⟨_, m.yielded, _, rfl⟩

theorem tree_suspend (m : Machine) (id : TaskId) (pause : Pause) (frames : List Frame) :
    (m.suspend id pause frames).tree = m.tree := by
  have hset := tree_setTask m id (f := fun t => { t with state := .suspended, frames }) fun _ => rfl
  cases pause <;> exact hset

/-! ### Messages -/

theorem tree_broadcast (m : Machine) (name : String) (sender : EntityId) :
    ∃ ids : List EntityId, (m.broadcast name sender).tree = ids.foldl ScopeTree.spawn m.tree := by
  unfold broadcast
  split
  · exact ⟨_, tree_spawnAll _ _⟩
  · exact ⟨[], rfl⟩

theorem broadcast_shape (m : Machine) (name : String) (sender : EntityId) :
    ∃ world tasks nextTask stats ready, m.broadcast name sender =
      { m with world, tasks, nextTask, stats, ready } := by
  unfold broadcast
  split
  · obtain ⟨tasks, nextTask, stats, ready, he⟩ := spawnAll_shape _ _
    exact ⟨_, tasks, nextTask, stats, ready, he⟩
  · exact ⟨m.world, m.tasks, m.nextTask, m.stats, m.ready, rfl⟩

theorem edited_broadcast {speech mouse : Bool} (m : Machine) (name : String) (sender : EntityId) :
    m.world.Edited speech mouse (m.broadcast name sender).world := by
  unfold broadcast
  split
  · rw [world_spawnAll]
    exact .trans (.record m.world _) (.notify _ rfl rfl rfl)
  · exact .refl m.world

theorem acted_broadcast (m : Machine) (name : String) (sender : EntityId) :
    m.world.Acted (m.broadcast name sender).world :=
  World.Edited.acted (edited_broadcast m name sender : m.world.Edited false false _)

/-! ### The beginning of a run -/

/-- The machine with a new run in which no entity has a scope yet. -/
def restarted (m : Machine) : Machine :=
  { m.halt with
    run := [m.nextSerial]
    nextSerial := m.nextSerial + 1
    world := registerAll m.world.halt.beginRun m.programs
    scopes := [] }

/-- The machine with a new run in which scripts can start. -/
def opened (m : Machine) : Machine :=
  (List.range m.world.entities.length).foldl openScope m.restarted

def starters (m : Machine) : List Listener :=
  ((List.range m.world.entities.length).zip m.programs).flatMap fun (id, p) =>
    p.onStart.toList.map (⟨id, ·⟩)

theorem openScopes_shape (m : Machine) (ids : List EntityId) :
    ∃ scopes serial, ids.foldl openScope m = { m with scopes := scopes, nextSerial := serial } := by
  induction ids generalizing m with
  | nil => exact ⟨m.scopes, m.nextSerial, rfl⟩
  | cons id ids ih => exact ih (m.openScope id)

theorem opened_shape (m : Machine) :
    ∃ scopes serial, m.opened = { m.restarted with scopes := scopes, nextSerial := serial } :=
  openScopes_shape m.restarted _

theorem start_eq (m : Machine) : m.start = m.opened.spawnAll m.starters := by
  have hprograms : m.opened.programs = m.programs := by
    obtain ⟨scopes, serial, ho⟩ := opened_shape m
    rw [ho]
    rfl
  have hstart : m.start = ((List.range m.world.entities.length).zip m.opened.programs).foldl
      (fun m (id, p) => p.onStart.toList.foldl (·.spawn id ·) m) m.opened := by
    simp only [start, world_halt]
    rfl
  rw [hstart, hprograms, spawnAll, starters, List.foldl_flatMap]
  simp only [List.foldl_map]

theorem world_start (m : Machine) : m.start.world = registerAll m.world.halt.beginRun m.programs := by
  obtain ⟨scopes, serial, ho⟩ := opened_shape m
  rw [start_eq, world_spawnAll, ho]
  rfl

theorem tree_restarted (m : Machine) : m.restarted.tree = m.tree.restart := by
  have hhalt := tree_halt m
  simp only [tree, ScopeTree.halt, ScopeTree.stop, ScopeTree.mk.injEq] at hhalt
  simp only [restarted, tree, ScopeTree.restart, ScopeTree.halt, ScopeTree.stop, hhalt]
  rfl

theorem tree_opened (m : Machine) : m.opened.tree = m.tree.start := by
  have hfold : ∀ (ids : List EntityId) (n : Machine),
      (ids.foldl openScope n).tree = ids.foldl ScopeTree.openScope n.tree := by
    intro ids
    induction ids with
    | nil => exact fun _ => rfl
    | cons id rest ih => exact fun n => ih (n.openScope id)
  rw [opened, hfold, tree_restarted]
  rfl

/-! ### Effects -/

section Effects

variable {self : Self} {m n : Machine}

theorem Effect.edited (h : Effect self m n) : m.world.Edited true true n.world := by
  have hedit : ∀ {speech mouse : Bool} {w : World}, m.world.Edited speech mouse w →
      m.world.Edited true true w := fun he => he.imp (fun _ => rfl) fun _ => rfl
  cases h with
  | draw random => exact .refl m.world
  | act a world sequel random hr => exact hedit (Action.outcome hr).edited
  | glide way share world hw => exact hedit ((m.world.changes_glideTo _ way share).of_ok hw)
  | unsay kind seq world hw => exact hedit ((m.world.meets_clearSpeech _ kind seq).of_ok hw)
  | broadcast message => exact edited_broadcast m message self.entity
  | request => exact .trans (.requests m.world rfl _ _) (.notify _ rfl rfl rfl)
  | closeRequest ticket => exact .requests m.world rfl _ m.world.nextTicket
  | stopOthers => exact edited_stopOthers m self.entity self.task

theorem Effect.acted (h : Effect self m n) : m.world.Acted n.world :=
  h.edited.acted

/-- What a task does at once starts tasks or stops others of its entity, and no more. -/
theorem Effect.tree (h : Effect self m n) :
    (∃ ids : List EntityId, n.tree = ids.foldl ScopeTree.spawn m.tree) ∨
      n.tree = m.tree.stopOthers self.entity self.task := by
  have hworld : ∀ {world : World} (random : SplitMix), m.world.Acted world →
      { m with random, world }.tree = m.tree := by
    intro world random ha
    simp only [Machine.tree, ha.running, ha.length]
  have ha := h.acted
  cases h with
  | draw random => exact .inl ⟨[], rfl⟩
  | act a world sequel random hr => exact .inl ⟨[], hworld random ha⟩
  | glide way share world hw => exact .inl ⟨[], hworld m.random ha⟩
  | unsay kind seq world hw => exact .inl ⟨[], hworld m.random ha⟩
  | broadcast message => exact .inl (tree_broadcast m message self.entity)
  | request => exact .inl ⟨[], rfl⟩
  | closeRequest ticket => exact .inl ⟨[], rfl⟩
  | stopOthers => exact .inr (tree_stopOthers m self.entity self.task)

theorem Path.edited {ms : List Moment} (h : Path self m ms n) :
    m.world.Edited true true n.world := by
  induction h with
  | refl m => exact .refl m.world
  | effect he _ ih => exact he.edited.trans ih
  | stmt s hs _ ih => exact ih

/-- A task changes neither the programs nor, but by executing a statement, their count. -/
theorem Effect.frame (h : Effect self m n) :
    n.programs = m.programs ∧ n.statements = m.statements := by
  cases h with
  | broadcast message =>
    obtain ⟨world, tasks, nextTask, stats, ready, he⟩ := broadcast_shape m message self.entity
    rw [he]
    exact ⟨rfl, rfl⟩
  | stopOthers =>
    obtain ⟨stopped, waits, ready, requests, he⟩ := stopTasks_shape m
      (m.tasks.filter fun t => t.entity == self.entity && t.id != self.task)
    rw [Machine.stopOthers, he]
    exact ⟨rfl, rfl⟩
  | _ => exact ⟨rfl, rfl⟩

end Effects

end Machine

end SpriteStage
