import SpriteStage.Proofs.Machine.Sound

/-!
Starting scripts in a run. Nothing stands in the way of a script that starts: of listeners that
exist, each gets a task, and the tasks are numbered in the order of the listeners.
-/

namespace SpriteStage.Machine

variable {m : Machine}

/-- The task in which a script starts, if it gets this number. -/
def taskOf (m : Machine) (l : Listener) (id : TaskId) : Task where
  id := id
  entity := l.entity
  hat := l.script.hat
  state := .ready
  token := (m.scopes.lookup l.entity).getD [] ++ [id]
  frames := [.block l.script.body]

theorem spawn_of_isOpen {id : EntityId} (h : m.tree.IsOpen id) (script : Script) :
    m.spawn id script =
      { m with
        tasks := m.tasks ++ [m.taskOf ⟨id, script⟩ m.nextTask]
        nextTask := m.nextTask + 1
        stats := { m.stats with spawned := m.stats.spawned + 1 }
        ready := m.ready ++ [m.nextTask] } := by
  obtain ⟨scope, hlookup, hs⟩ := h
  have hlookup' : m.scopes.lookup id = some scope := hlookup
  have hs' : m.isStopped scope = false := hs
  simp only [spawn, hlookup', hs', Bool.false_eq_true, if_false, taskOf, Option.getD_some]

theorem Sound.isStopped_taskOf (h : m.Sound) {l : Listener} {id : TaskId}
    (ho : m.tree.IsOpen l.entity) (hid : m.nextTask ≤ id) :
    m.isStopped (m.taskOf l id).token = false := by
  obtain ⟨scope, hlookup, hs⟩ := ho
  have hlookup' : m.scopes.lookup l.entity = some scope := hlookup
  have htoken : (m.taskOf l id).token = scope ++ [id] := by
    simp only [taskOf, hlookup', Option.getD_some]
  rw [htoken]
  exact h.tree.isStopped_newTask hlookup hs hid

theorem Sound.spawnAll_eq {ls : List Listener} (h : m.Sound) (hr : m.world.running = true)
    (hl : ∀ l ∈ ls, l.entity < m.world.entities.length) :
    m.spawnAll ls =
      { m with
        tasks := m.tasks ++ (ls.zipIdx m.nextTask).map fun (l, id) => m.taskOf l id
        nextTask := m.nextTask + ls.length
        stats := { m.stats with spawned := m.stats.spawned + ls.length }
        ready := m.ready ++ List.range' m.nextTask ls.length } := by
  induction ls generalizing m with
  | nil =>
    show m = _
    simp
  | cons l rest ih =>
    have hopen : m.tree.IsOpen l.entity := h.covered hr l.entity (hl l List.mem_cons_self)
    have hspawn := spawn_of_isOpen hopen l.script
    have hsound : (m.spawn l.entity l.script).Sound := h.spawnAll [l]
    rw [hspawn] at hsound
    have hrest := ih hsound hr fun l' hl' => hl l' (List.mem_cons_of_mem l hl')
    show (m.spawn l.entity l.script).spawnAll rest = _
    rw [hspawn, hrest]
    simp only [taskOf, List.zipIdx_cons, List.map_cons, List.length_cons, List.range'_succ,
      List.append_assoc, List.cons_append, List.nil_append, Nat.add_assoc, Nat.add_comm 1]

end SpriteStage.Machine
