import SpriteStage.Proofs.Machine.Spawn
import SpriteStage.Proofs.Message.Registry

/-!
Messages in a run. Every listener to a message gets a task, the message is remembered with its
receivers as far as the history reaches back, and the host hears of it once. While no run is going
on, messages, keys and clicks start nothing and leave no trace.
-/

namespace SpriteStage

def Action.isBroadcast : Action → Bool
  | .broadcast _ | .broadcastAndWait .. => true
  | _ => false

namespace Machine

/-! ### Receivers -/

/-- What comes of a message for which `ts` start: one task for each listener, numbered in the order
of their registration, all of them ready; and the newest record, if any is kept, is of this message
and these tasks. -/
structure FanOut (m : Machine) (name : String) (sender : EntityId) (ts : List Task) (n : Machine) :
    Prop where
  entities : ts.map (·.entity) = (m.world.switchboard.messageListeners name).map (·.entity)
  frames : ts.map (·.frames) =
    (m.world.switchboard.messageListeners name).map fun l => [.block l.script.body]
  ids : ts.map (·.id) = List.range' m.nextTask ts.length
  live : ∀ t ∈ ts, t.state = .ready ∧ n.isStopped t.token = false
  tasks : n.tasks = m.tasks ++ ts
  nextTask : n.nextTask = m.nextTask + ts.length
  ready : n.ready = m.ready ++ ts.map (·.id)
  history : n.world.switchboard.history <:+
    m.world.switchboard.history ++ [⟨name, sender, m.world.clock, ts.map (·.entity)⟩]
  length : n.world.switchboard.history.length =
    min m.world.switchboard.capacity (m.world.switchboard.history.length + 1)
  events : n.world.events =
    m.world.events ++ [.messageBroadcastObserved name sender m.world.clock]

variable {m : Machine}

def receivers (m : Machine) (name : String) : List Task :=
  ((m.world.switchboard.messageListeners name).zipIdx m.nextTask).map fun (l, id) => m.taskOf l id

theorem length_receivers (m : Machine) (name : String) :
    (m.receivers name).length = (m.world.switchboard.messageListeners name).length := by
  rw [receivers, List.length_map, List.length_zipIdx]

theorem map_receivers {α : Type} (m : Machine) (name : String) {f : Task → α} {g : Listener → α}
    (h : ∀ l id, f (m.taskOf l id) = g l) :
    (m.receivers name).map f = (m.world.switchboard.messageListeners name).map g := by
  calc (m.receivers name).map f
      = ((m.world.switchboard.messageListeners name).zipIdx m.nextTask).map (g ∘ Prod.fst) := by
        rw [receivers, List.map_map]
        exact List.map_congr_left fun p _ => h p.1 p.2
    _ = (m.world.switchboard.messageListeners name).map g := by
        rw [← List.map_map, List.zipIdx_map_fst]

theorem map_id_receivers (m : Machine) (name : String) :
    (m.receivers name).map (·.id) = List.range' m.nextTask (m.receivers name).length := by
  rw [length_receivers, receivers, List.map_map]
  exact List.zipIdx_map_snd _ _

theorem Sound.live_receivers (h : m.Sound) (hr : m.world.running = true) {name : String} {t : Task}
    (ht : t ∈ m.receivers name) : t.state = .ready ∧ m.isStopped t.token = false := by
  obtain ⟨⟨l, id⟩, hp, rfl⟩ := List.mem_map.1 ht
  have hl : l ∈ m.world.switchboard.messageListeners name := List.fst_mem_of_mem_zipIdx hp
  have hentity := h.listeners l (Switchboard.mem_listeners_of_message hl)
  have hid : m.nextTask ≤ id := List.le_snd_of_mem_zipIdx hp
  exact ⟨rfl, h.isStopped_taskOf (h.covered hr l.entity hentity) hid⟩

/-! ### Sending -/

/-- The machine that has recorded a message and told the host, before anybody receives it. -/
def posted (m : Machine) (name : String) (sender : EntityId) : Machine :=
  let receivers := (m.world.switchboard.messageListeners name).map (·.entity)
  let switchboard := m.world.switchboard.record ⟨name, sender, m.world.clock, receivers⟩
  { m with
    world := { m.world with switchboard }.notify
      (.messageBroadcastObserved name sender m.world.clock) }

theorem Sound.broadcast_eq (h : m.Sound) (hr : m.world.running = true) (name : String)
    (sender : EntityId) :
    m.broadcast name sender =
      { m.posted name sender with
        tasks := m.tasks ++ m.receivers name
        nextTask := m.nextTask + (m.receivers name).length
        stats := { m.stats with spawned := m.stats.spawned + (m.receivers name).length }
        ready := m.ready ++ (m.receivers name).map (·.id) } := by
  have hsound : (m.posted name sender).Sound := ⟨h.tree, h.covered, h.programs, h.listeners⟩
  have hlisteners : ∀ l ∈ m.world.switchboard.messageListeners name,
      l.entity < (m.posted name sender).world.entities.length :=
    fun l hl => h.listeners l (Switchboard.mem_listeners_of_message hl)
  have hspawn := hsound.spawnAll_eq hr hlisteners
  have hsend : m.broadcast name sender =
      (m.posted name sender).spawnAll (m.world.switchboard.messageListeners name) := if_pos hr
  rw [hsend, hspawn, map_id_receivers, length_receivers]
  rfl

theorem Sound.fanOut (h : m.Sound) (hr : m.world.running = true) (name : String)
    (sender : EntityId) : m.FanOut name sender (m.receivers name) (m.broadcast name sender) := by
  have hentities := map_receivers m name (f := (·.entity)) (g := (·.entity)) fun _ _ => rfl
  rw [h.broadcast_eq hr name sender]
  refine ⟨hentities, ?_, map_id_receivers m name, ?_, rfl, rfl, rfl, ?_, ?_, ?_⟩
  · exact map_receivers m name fun _ _ => rfl
  · exact fun t ht => h.live_receivers hr ht
  · rw [hentities]
    exact Switchboard.history_record_suffix _ _
  · exact Switchboard.length_history_record _ _
  · simp only [posted, World.notify, hr, if_true]

/-! ### When no run is going on -/

structure Unheard (m n : Machine) : Prop where
  tasks : n.tasks = m.tasks
  nextTask : n.nextTask = m.nextTask
  stats : n.stats = m.stats
  ready : n.ready = m.ready
  history : n.world.switchboard.history = m.world.switchboard.history
  events : n.world.events = m.world.events

theorem unheard_broadcast (hr : m.world.running = false) (name : String) (sender : EntityId) :
    m.Unheard (m.broadcast name sender) := by
  rw [show m.broadcast name sender = m from if_neg (by simp [hr])]
  exact ⟨rfl, rfl, rfl, rfl, rfl, rfl⟩

theorem unheard_keyDown (hr : m.world.running = false) (key : String) :
    m.Unheard (m.keyDown key) := by
  simp only [keyDown, hr, Bool.false_eq_true, if_false]
  exact ⟨rfl, rfl, rfl, rfl, rfl, rfl⟩

theorem unheard_click (hr : m.world.running = false) (id : EntityId) : m.Unheard (m.click id) := by
  rw [show m.click id = m from if_neg (by simp [hr])]
  exact ⟨rfl, rfl, rfl, rfl, rfl, rfl⟩

/-! ### Scripts that send -/

theorem FanOut.of_counted {name : String} {sender : EntityId} {ts : List Task} {random : SplitMix}
    {n : Machine} (h : { m.counted with random }.FanOut name sender ts n) :
    m.FanOut name sender ts n :=
  ⟨h.entities, h.frames, h.ids, h.live, h.tasks, h.nextTask, h.ready, h.history, h.length, h.events⟩

theorem ensures_broadcast (w : World) (id : EntityId) {a : Action} (ha : a.isBroadcast = true) :
    (a.run w id).Ensures fun result => result.1 = w ∧ ∃ name span, result.2 = .broadcast name span := by
  cases a with
  | broadcast e =>
    exact ((e.meets_eval w id).bind fun _ _ => Eval.meets_pure ⟨rfl, _, _, rfl⟩).ensures
  | broadcastAndWait e secs =>
    refine ((e.meets_eval w id).bind fun _ _ => ?_).ensures
    exact (secs.meets_evalNumber w id _).bind fun _ _ => Eval.meets_pure ⟨rfl, _, _, rfl⟩
  | _ => cases ha

/-- A script that sends a message sends it to all, unless what it sends has no value. -/
theorem Sound.fanOut_exec (h : m.Sound) (hr : m.world.running = true) (self : Self) {a : Action}
    (ha : a.isBroadcast = true) :
    (∃ n error, exec self m (.act a) = .ended n (.failed error) ∧ m.Unheard n) ∨
      ∃ name ts, m.FanOut name self.entity ts (exec self m (.act a)).machine := by
  rw [exec, act_eq, Machine.eval]
  split
  next result random hrun =>
    obtain ⟨world, sequel⟩ := result
    obtain ⟨hworld, name, span, hsequel⟩ :=
      ensures_broadcast m.world self.entity ha m.random _ random hrun
    cases hworld
    cases hsequel
    have hdraw : Effect self m.counted { m.counted with random } := .draw m.counted random
    have hsound := h.counted.effect hdraw
    have hfan := (hsound.fanOut hr name self.entity).of_counted
    cases span with
    | none => exact .inr ⟨name, _, hfan⟩
    | some span => exact .inr ⟨name, _, hfan⟩
  next error random hrun => exact .inl ⟨_, error, rfl, rfl, rfl, rfl, rfl, rfl, rfl⟩

/-! ### The theorem -/

/-- Every listener exists and every entity can start scripts in a run, so a message that the host or
a script sends reaches all its listeners. A history without room remembers nothing. -/
theorem broadcast_reaches_listeners {n : Machine} (hn : n.Visited) :
    (n.world.running = true ↔ n.isStopped n.run = false) ∧
    (n.world.running = true → ∀ id < n.world.entities.length,
      ∃ scope, n.scopes.lookup id = some scope ∧ n.isStopped scope = false) ∧
    (∀ l ∈ n.world.switchboard.listeners, l.entity < n.world.entities.length) ∧
    (n.world.running = true → ∀ name sender,
      ∃ ts, n.FanOut name sender ts (n.broadcast name sender)) ∧
    (n.world.running = true → ∀ self a, a.isBroadcast = true →
      (∃ n' error, exec self n (.act a) = .ended n' (.failed error) ∧ n.Unheard n') ∨
        ∃ name ts, n.FanOut name self.entity ts (exec self n (.act a)).machine) ∧
    (n.world.running = false → ∀ name sender key id, n.Unheard (n.broadcast name sender) ∧
      n.Unheard (n.keyDown key) ∧ n.Unheard (n.click id)) := by
  have h := hn.sound
  have hrunning : n.world.running = !n.isStopped n.run := h.tree.running
  refine ⟨?_, h.covered, h.listeners, ?_, ?_, ?_⟩
  · rw [hrunning]
    cases n.isStopped n.run <;> simp
  · exact fun hr name sender => ⟨_, h.fanOut hr name sender⟩
  · exact fun hr self a => h.fanOut_exec hr self
  · exact fun hr name sender key id =>
      ⟨unheard_broadcast hr name sender, unheard_keyDown hr key, unheard_click hr id⟩

theorem broadcast_reaches_listeners_sample :
    Sample.machine.Visited ∧ Sample.machine.world.running = true ∧
      (Sample.machine.broadcast "go" 0).ready = [3, 4, 5] ∧
      ∃ ts, Sample.machine.FanOut "go" 0 ts (Sample.machine.broadcast "go" 0) := by
  have hvisited : Sample.machine.Visited := .inl Sample.reachable
  refine ⟨hvisited, rfl, by decide +kernel, ?_⟩
  exact (broadcast_reaches_listeners hvisited).2.2.2.1 rfl "go" 0

/-- A run whose history has no room: not every message is remembered. -/
theorem broadcast_not_always_recorded :
    ¬ ∀ m : Machine, m.Reachable → m.world.running = true → ∀ name sender, ∃ record,
      (m.broadcast name sender).world.switchboard.history =
        m.world.switchboard.history ++ [record] := by
  intro h
  obtain ⟨record, hrecord⟩ := h ((Machine.new { Options.standard with historyCapacity := 0 }).after
    [.command .start]) ⟨_, _, rfl⟩ rfl "go" 0
  have hnil : ([] : List MessageRecord) = [record] := hrecord
  cases hnil

end Machine

end SpriteStage
