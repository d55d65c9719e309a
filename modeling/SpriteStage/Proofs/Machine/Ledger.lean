import SpriteStage.Proofs.Machine.Sound

/-!
The books that a machine keeps of its tasks.

A ledger has a row for each task that has not ended, and counts those that have. Every operation of
the machine leaves its ledger alone, enters new tasks, marks the row of a task or closes it. So a
move comes to one of three steps (`Ledger.Step`), and what these keep holds after any moves: each
task that has started is in the table or has been counted out once, numbers are given out in order,
and a task that waits for its first turn is told from one that goes on later.
-/

namespace SpriteStage

structure Ledger where
  rows : List (TaskId × TaskState)
  nextTask : TaskId
  stats : Stats

namespace Ledger

def ids (b : Ledger) : List TaskId :=
  b.rows.map (·.1)

def enter (b : Ledger) (count : Nat) : Ledger where
  rows := b.rows ++ (List.range' b.nextTask count).map (·, .ready)
  nextTask := b.nextTask + count
  stats := { b.stats with spawned := b.stats.spawned + count }

def mark (b : Ledger) (id : TaskId) (state : TaskState) : Ledger :=
  { b with rows := b.rows.map fun row => if row.1 = id then (row.1, state) else row }

def close (b : Ledger) (id : TaskId) (ending : Ending ScriptError) : Ledger :=
  { b with rows := b.rows.filter (·.1 != id), stats := b.stats.count ending }

variable {b b' : Ledger} {id : TaskId}

theorem enter_zero (b : Ledger) : b.enter 0 = b := by
  simp [enter]

theorem enter_enter (b : Ledger) (count more : Nat) :
    (b.enter count).enter more = b.enter (count + more) := by
  simp [enter, ← List.map_append, List.range'_append_1, Nat.add_assoc]

theorem ids_enter (b : Ledger) (count : Nat) :
    (b.enter count).ids = b.ids ++ List.range' b.nextTask count := by
  simp [ids, enter, Function.comp_def]

theorem ids_mark (b : Ledger) (id : TaskId) (state : TaskState) : (b.mark id state).ids = b.ids := by
  simp only [ids, mark, List.map_map]
  refine List.map_congr_left fun row _ => ?_
  simp only [Function.comp_apply]
  split <;> rfl

theorem ids_close (b : Ledger) (id : TaskId) (ending : Ending ScriptError) :
    (b.close id ending).ids = b.ids.filter (· != id) := by
  simp [ids, close, List.filter_map, Function.comp_def]

theorem mark_mark (b : Ledger) (id : TaskId) (first second : TaskState) :
    (b.mark id first).mark id second = b.mark id second := by
  simp only [mark, List.map_map, mk.injEq, and_true]
  refine List.map_congr_left fun row _ => ?_
  simp only [Function.comp_apply]
  split <;> simp_all

theorem close_mark (b : Ledger) (id : TaskId) (state : TaskState) (ending : Ending ScriptError) :
    (b.mark id state).close id ending = b.close id ending := by
  simp only [close, mark, mk.injEq, and_true]
  induction b.rows with
  | nil => rfl
  | cons row rest ih => by_cases h : row.1 = id <;> simp [h, ih]

/-! ### Numbers in order -/

structure Ordered (b : Ledger) : Prop where
  below : ∀ i ∈ b.ids, i < b.nextTask
  increasing : b.ids.Pairwise (· < ·)

theorem Ordered.mark (h : b.Ordered) (id : TaskId) (state : TaskState) : (b.mark id state).Ordered := by
  constructor <;> rw [ids_mark]
  · exact h.below
  · exact h.increasing

-- A new task has none of the numbers in the book, so marking and closing can come first.
theorem mark_enter (h : b.Ordered) (hid : id ∈ b.ids) (count : Nat) (state : TaskState) :
    (b.enter count).mark id state = (b.mark id state).enter count := by
  have hlt := h.below id hid
  have hnew : ∀ i ∈ List.range' b.nextTask count, ¬ i = id := by
    intro i hi
    have hle := (List.mem_range'_1.1 hi).1
    exact Nat.ne_of_gt (Nat.lt_of_lt_of_le hlt hle)
  simp only [enter, mark, List.map_append, List.map_map, mk.injEq, and_true]
  congr 1
  refine List.map_congr_left fun i hi => ?_
  simp only [Function.comp_apply, if_neg (hnew i hi)]

theorem close_enter (h : b.Ordered) (hid : id ∈ b.ids) (count : Nat) (ending : Ending ScriptError) :
    (b.enter count).close id ending = (b.close id ending).enter count := by
  have hlt := h.below id hid
  have hnew : ((List.range' b.nextTask count).map fun i => (i, TaskState.ready)).filter (·.1 != id) =
      (List.range' b.nextTask count).map (·, .ready) := by
    refine List.filter_eq_self.2 fun row hrow => ?_
    obtain ⟨i, hi, rfl⟩ := List.mem_map.1 hrow
    have hle := (List.mem_range'_1.1 hi).1
    exact bne_iff_ne.2 (Nat.ne_of_gt (Nat.lt_of_lt_of_le hlt hle))
  cases ending <;> simp [enter, close, List.filter_append, hnew, Stats.count]

theorem length_close (h : b.Ordered) (hid : id ∈ b.ids) (ending : Ending ScriptError) :
    (b.close id ending).rows.length + 1 = b.rows.length := by
  have hnodup : b.ids.Nodup := h.increasing.imp Nat.ne_of_lt
  have hone : b.ids.count id = 1 := by
    rw [hnodup.count, if_pos hid]
  have hsplit := List.length_eq_countP_add_countP (· == id) (l := b.ids)
  have hrest : (b.close id ending).ids.length = b.ids.countP (fun i => ¬(i == id) = true) := by
    rw [ids_close, ← List.countP_eq_length_filter]
    refine List.countP_congr fun i _ => ?_
    simp
  simp only [List.count, ids, List.length_map] at hone hsplit hrest
  omega

/-! ### Balance -/

/-- Every task that has started is in the book, or has been counted out once. -/
structure Balanced (b : Ledger) : Prop where
  spawned : b.stats.spawned = b.stats.completed + b.stats.cancelled + b.rows.length
  failed : b.stats.failed ≤ b.stats.completed
  numbered : b.nextTask = b.stats.spawned + 1

theorem Balanced.enter (h : b.Balanced) (count : Nat) : (b.enter count).Balanced := by
  obtain ⟨hspawned, hfailed, hnumbered⟩ := h
  refine ⟨?_, hfailed, ?_⟩
  · simp only [Ledger.enter, List.length_append, List.length_map, List.length_range']
    omega
  · simp only [Ledger.enter, hnumbered]
    exact Nat.add_right_comm _ _ _

theorem Balanced.mark (h : b.Balanced) (id : TaskId) (state : TaskState) :
    (b.mark id state).Balanced := by
  refine ⟨?_, h.failed, h.numbered⟩
  simp only [Ledger.mark, List.length_map]
  exact h.spawned

theorem Balanced.close (h : b.Balanced) (ho : b.Ordered) (hid : id ∈ b.ids)
    (ending : Ending ScriptError) : (b.close id ending).Balanced := by
  have hlength := length_close ho hid ending
  obtain ⟨hspawned, hfailed, hnumbered⟩ := h
  cases ending <;>
    exact ⟨by simp only [Ledger.close, Stats.count] at hlength ⊢; omega,
      by simp only [Ledger.close, Stats.count]; omega, hnumbered⟩

/-! ### Steps -/

/-- What a move does to the book, by the task whose turn it is, if there is one. -/
inductive Step (b : Ledger) : Option TaskId → Ledger → Prop where
  | idle (count : Nat) : Step b none (b.enter count)
  | rests {id : TaskId} (hid : id ∈ b.ids) (count : Nat) :
      Step b (some id) ((b.mark id .suspended).enter count)
  | leaves {id : TaskId} (hid : id ∈ b.ids) (ending : Ending ScriptError) (count : Nat) :
      Step b (some id) ((b.close id ending).enter count)

theorem Step.balanced {turn : Option TaskId} (hs : b.Step turn b') (h : b.Balanced)
    (ho : b.Ordered) : b'.Balanced := by
  cases hs with
  | idle count => exact h.enter count
  | rests hid count => exact (h.mark _ _).enter count
  | leaves hid ending count => exact (h.close ho hid ending).enter count

/-- Just the next numbers come into the book. -/
theorem Step.fresh {turn : Option TaskId} (hs : b.Step turn b') (ho : b.Ordered) :
    ∃ count, b'.nextTask = b.nextTask + count ∧
      b'.ids.filter (fun i => !b.ids.contains i) = List.range' b.nextTask count := by
  have hold : ∀ l : List TaskId, (∀ i ∈ l, i ∈ b.ids) →
      l.filter (fun i => !b.ids.contains i) = [] := by
    intro l hl
    refine List.filter_eq_nil_iff.2 fun i hi => ?_
    simp [hl i hi]
  have hnew : ∀ count, (List.range' b.nextTask count).filter (fun i => !b.ids.contains i) =
      List.range' b.nextTask count := by
    intro count
    refine List.filter_eq_self.2 fun i hi => ?_
    have hle := (List.mem_range'_1.1 hi).1
    have hnot : i ∉ b.ids := fun hmem => Nat.not_lt.2 hle (ho.below i hmem)
    simp [hnot]
  cases hs with
  | idle count =>
    refine ⟨count, rfl, ?_⟩
    rw [ids_enter, List.filter_append, hold _ fun i hi => hi, hnew, List.nil_append]
  | rests hid count =>
    refine ⟨count, rfl, ?_⟩
    rw [ids_enter, ids_mark, List.filter_append, hold _ fun i hi => hi, List.nil_append]
    exact hnew count
  | leaves hid ending count =>
    refine ⟨count, rfl, ?_⟩
    rw [ids_enter, ids_close, List.filter_append, hold _ fun i hi => (List.mem_filter.1 hi).1,
      List.nil_append]
    exact hnew count

/-! ### Turns -/

/-- After these turns, just the tasks without one are still ready; the others wait. -/
structure Settled (b : Ledger) (turns : List TaskId) : Prop where
  past : ∀ id ∈ turns, id < b.nextTask
  rows : ∀ row ∈ b.rows,
    row.2 = .ready ∧ row.1 ∉ turns ∨ row.2 = .suspended ∧ row.1 ∈ turns

theorem Settled.enter {turns : List TaskId} (h : b.Settled turns) (count : Nat) :
    (b.enter count).Settled turns where
  past id hid := Nat.lt_of_lt_of_le (h.past id hid) (Nat.le_add_right _ _)
  rows := by
    intro row hrow
    rcases List.mem_append.1 hrow with hrow | hrow
    · exact h.rows row hrow
    · obtain ⟨i, hi, rfl⟩ := List.mem_map.1 hrow
      have hle := (List.mem_range'_1.1 hi).1
      exact .inl ⟨rfl, fun hmem => Nat.not_lt.2 hle (h.past i hmem)⟩

theorem Settled.turn {turns : List TaskId} (h : b.Settled turns) (ho : b.Ordered)
    (hid : id ∈ b.ids) (hrows : ∀ row ∈ b'.rows, row = (id, .suspended) ∨ row ∈ b.rows ∧ row.1 ≠ id)
    (hnext : b'.nextTask = b.nextTask) : b'.Settled (turns ++ [id]) where
  past i hi := by
    rw [hnext]
    rcases List.mem_append.1 hi with hi | hi
    · exact h.past i hi
    · cases List.mem_singleton.1 hi
      exact ho.below id hid
  rows := by
    intro row hrow
    rcases hrows row hrow with rfl | ⟨hmem, hne⟩
    · exact .inr ⟨rfl, by simp⟩
    · rcases h.rows row hmem with ⟨hstate, hnot⟩ | ⟨hstate, hin⟩
      · exact .inl ⟨hstate, by simp [hnot, hne]⟩
      · exact .inr ⟨hstate, List.mem_append_left _ hin⟩

theorem Step.settled {turn : Option TaskId} {turns : List TaskId} (hs : b.Step turn b')
    (h : b.Settled turns) (ho : b.Ordered) : b'.Settled (turns ++ turn.toList) := by
  cases hs with
  | idle count =>
    rw [Option.toList_none, List.append_nil]
    exact h.enter count
  | @rests id hid count =>
    refine Settled.enter (b := b.mark id .suspended) (h.turn ho hid (fun row hrow => ?_) rfl) count
    obtain ⟨old, hold, rfl⟩ := List.mem_map.1 hrow
    by_cases hrow : old.1 = id
    · exact .inl (by simp [hrow])
    · exact .inr (by simp [hrow, hold])
  | @leaves id hid ending count =>
    refine Settled.enter (b := b.close id ending) (h.turn ho hid (fun row hrow => .inr ?_) rfl) count
    obtain ⟨hmem, hne⟩ := List.mem_filter.1 hrow
    exact ⟨hmem, by simpa using hne⟩

/-- While a task has its turn, it is the only one that is running, and none is over. -/
theorem states_of_turn {turns : List TaskId} (hs : b.Settled turns) (ho : b.Ordered) (hid : id ∈ b.ids)
    (count : Nat) :
    ∀ row ∈ ((b.mark id .running).enter count).rows,
      (row.2 = .running ↔ row.1 = id) ∧ row.2 ≠ .completed ∧ row.2 ≠ .cancelled := by
  intro row hrow
  rcases List.mem_append.1 hrow with hrow | hrow
  · obtain ⟨old, hold, rfl⟩ := List.mem_map.1 hrow
    rcases hs.rows old hold with ⟨hstate, _⟩ | ⟨hstate, _⟩ <;> split <;> simp_all
  · obtain ⟨i, hi, rfl⟩ := List.mem_map.1 hrow
    have hlt := ho.below id hid
    have hle := (List.mem_range'_1.1 hi).1
    have hne : i ≠ id := Nat.ne_of_gt (Nat.lt_of_lt_of_le hlt hle)
    simp [hne]

end Ledger

namespace Machine

def ledger (m : Machine) : Ledger where
  rows := m.tasks.map fun t => (t.id, t.state)
  nextTask := m.nextTask
  stats := m.stats

variable {m n : Machine}

theorem ids_ledger (m : Machine) : m.ledger.ids = m.tasks.map (·.id) := by
  simp [ledger, Ledger.ids, Function.comp_def]

theorem Sound.ordered (h : m.Sound) : m.ledger.Ordered := by
  have hleaves : m.ledger.ids = m.tree.leaves.map (·.id) := by
    simp [ids_ledger, Machine.tree, Task.leaf, Function.comp_def]
  constructor
  · rw [hleaves]
    intro i hi
    obtain ⟨l, hl, rfl⟩ := List.mem_map.1 hi
    exact (h.tree.leaf l hl).1
  · rw [hleaves, List.pairwise_map]
    exact h.tree.leaves_apart

/-! ### The book of each operation -/

theorem ledger_spawnAll (m : Machine) (ls : List Listener) :
    ∃ count, (m.spawnAll ls).ledger = m.ledger.enter count := by
  have hspawn : ∀ (n : Machine) (l : Listener),
      ∃ count, (n.spawn l.entity l.script).ledger = n.ledger.enter count := by
    intro n l
    unfold spawn
    split
    · exact ⟨0, (Ledger.enter_zero _).symm⟩
    · split
      · exact ⟨0, (Ledger.enter_zero _).symm⟩
      · exact ⟨1, by simp [ledger, Ledger.enter]⟩
  induction ls generalizing m with
  | nil => exact ⟨0, (Ledger.enter_zero _).symm⟩
  | cons l rest ih =>
    obtain ⟨first, hfirst⟩ := hspawn m l
    obtain ⟨more, hmore⟩ := ih (m.spawn l.entity l.script)
    refine ⟨first + more, ?_⟩
    rw [← Ledger.enter_enter, ← hfirst]
    exact hmore

theorem ledger_broadcast (m : Machine) (name : String) (sender : EntityId) :
    ∃ count, (m.broadcast name sender).ledger = m.ledger.enter count := by
  unfold broadcast
  split
  · exact ledger_spawnAll _ _
  · exact ⟨0, (Ledger.enter_zero _).symm⟩

theorem ledger_setTask (m : Machine) (id : TaskId) {f : Task → Task} {state : TaskState}
    (hid : ∀ t, (f t).id = t.id) (hstate : ∀ t, (f t).state = state) :
    (m.setTask id f).ledger = m.ledger.mark id state := by
  simp only [ledger, setTask, Ledger.mark, List.map_map, Ledger.mk.injEq, and_true]
  refine List.map_congr_left fun t _ => ?_
  simp only [Function.comp_apply]
  split
  · rw [hid, hstate]
  · rfl

theorem ledger_suspend (m : Machine) (id : TaskId) (pause : Pause) (frames : List Frame) :
    (m.suspend id pause frames).ledger = m.ledger.mark id .suspended := by
  have hset : (m.setTask id fun t => { t with state := .suspended, frames }).ledger =
      m.ledger.mark id .suspended :=
    ledger_setTask m id (fun _ => rfl) fun _ => rfl
  cases pause <;> exact hset

theorem ledger_finish (m : Machine) (t : Task) (ending : Ending ScriptError) :
    (m.finish t ending).ledger = m.ledger.close t.id ending := by
  have hrows : (m.tasks.filter (·.id != t.id)).map (fun t => (t.id, t.state)) =
      (m.tasks.map fun t => (t.id, t.state)).filter (·.1 != t.id) := by
    rw [List.filter_map]
    rfl
  cases ending with
  | completed | cancelled => simp only [ledger, finish, Ledger.close, hrows]
  | failed e =>
    simp only [finish]
    split <;> simp only [ledger, Ledger.close, hrows]

theorem ledger_halt (m : Machine) : m.halt.ledger = m.ledger := by
  obtain ⟨waits, ready, requests, he⟩ := wake_shape
    { m with world := m.world.halt, stopped := m.run :: m.stopped } _
  rw [show m.halt = _ from he]
  rfl

theorem ledger_start (m : Machine) : ∃ count, m.start.ledger = m.ledger.enter count := by
  have hopened : m.opened.ledger = m.ledger := by
    obtain ⟨scopes, serial, ho⟩ := opened_shape m
    rw [ho]
    exact ledger_halt m
  rw [start_eq, ← hopened]
  exact ledger_spawnAll _ _

/-! ### The book of a turn -/

theorem Effect.ledger {self : Self} (h : Effect self m n) :
    ∃ count, n.ledger = m.ledger.enter count := by
  cases h with
  | broadcast message => exact ledger_broadcast m message self.entity
  | stopOthers =>
    obtain ⟨stopped, waits, ready, requests, he⟩ := stopTasks_shape m
      (m.tasks.filter fun t => t.entity == self.entity && t.id != self.task)
    rw [Machine.stopOthers, he]
    exact ⟨0, (Ledger.enter_zero _).symm⟩
  | _ => exact ⟨0, (Ledger.enter_zero _).symm⟩

theorem Path.ledger {self : Self} {ms : List Moment} (h : Path self m ms n) :
    ∃ count, n.ledger = m.ledger.enter count := by
  induction h with
  | refl m => exact ⟨0, (Ledger.enter_zero _).symm⟩
  | effect he _ ih =>
    obtain ⟨first, hfirst⟩ := he.ledger
    obtain ⟨more, hmore⟩ := ih
    exact ⟨first + more, by rw [hmore, hfirst, Ledger.enter_enter]⟩
  | stmt s hs _ ih => exact ih

theorem mem_ids_of_task? {id : TaskId} {t : Task} (h : m.task? id = some t) : id ∈ m.ledger.ids := by
  obtain ⟨hmem, rfl⟩ := mem_of_task? h
  rw [ids_ledger]
  exact List.mem_map_of_mem hmem

-- While a task has its turn, tasks may have started behind it, and it is the only one marked.
theorem turn_ledger {id : TaskId} {self : Self} {ms : List Moment}
    (hp : Path self (m.setTask id ({ · with state := .running })) ms n) :
    ∃ count, n.ledger = (m.ledger.mark id .running).enter count := by
  have hset : (m.setTask id ({ · with state := .running })).ledger = m.ledger.mark id .running :=
    ledger_setTask m id (fun _ => rfl) fun _ => rfl
  rw [← hset]
  exact hp.ledger

theorem Sound.step_leaves {id : TaskId} {t : Task} {self : Self} {ms : List Moment} (h : m.Sound)
    (ht : m.task? id = some t) (hp : Path self (m.setTask id ({ · with state := .running })) ms n)
    (ending : Ending ScriptError) : m.ledger.Step (some id) (n.ledger.close t.id ending) := by
  obtain ⟨count, hcount⟩ := turn_ledger hp
  have hid := mem_ids_of_task? ht
  rw [(mem_of_task? ht).2, hcount, Ledger.close_enter (h.ordered.mark id _) (by rwa [Ledger.ids_mark]),
    Ledger.close_mark]
  exact .leaves hid ending count

theorem Sound.step_rests {id : TaskId} {t : Task} {self : Self} {ms : List Moment} (h : m.Sound)
    (ht : m.task? id = some t) (hp : Path self (m.setTask id ({ · with state := .running })) ms n) :
    m.ledger.Step (some id) (n.ledger.mark id .suspended) := by
  obtain ⟨count, hcount⟩ := turn_ledger hp
  have hid := mem_ids_of_task? ht
  rw [hcount, Ledger.mark_enter (h.ordered.mark id _) (by rwa [Ledger.ids_mark]), Ledger.mark_mark]
  exact .rests hid count

theorem Sound.step_polled {id : TaskId} {t : Task} {ms : List Moment} (h : m.Sound)
    (ht : m.task? id = some t) (hp : Polled m id ms n) : m.ledger.Step (some id) n.ledger := by
  cases hp with
  | absent hnone => rw [hnone] at ht; cases ht
  | stopped ht hs =>
    rw [ledger_finish, (mem_of_task? ht).2, ← Ledger.enter_zero (m.ledger.close _ _)]
    exact .leaves (mem_ids_of_task? ht) .cancelled 0
  | paused ht hs hp pause frames =>
    rw [ledger_suspend]
    exact h.step_rests ht hp
  | ended ht hs hp ending =>
    rw [ledger_finish]
    exact h.step_leaves ht hp ending
  | @stoppedAll t _ n ht hs hp =>
    have hstop : n.counted.stopAll.ledger = n.ledger := ledger_halt n.counted
    rw [ledger_finish, hstop]
    exact h.step_leaves ht hp .cancelled
  | @stoppedSprite t _ n ht hs hp =>
    have hstop : (n.counted.stopEntity t.entity).ledger = n.ledger := by
      obtain ⟨scopes, nextSerial, stopped, waits, ready, requests, he⟩ :=
        stopEntity_shape n.counted t.entity
      rw [he]
      rfl
    rw [ledger_finish, hstop]
    exact h.step_leaves ht hp .cancelled

/-! ### The book of a move -/

/-- The task that has its turn in a move. -/
def turnOf (m : Machine) : Move → Option TaskId
  | .poll id => if id ∈ m.ready then (m.task? id).map (·.id) else none
  | _ => none

theorem Aside.ledger (h : m.Aside n) : n.ledger = m.ledger := by
  have hnext : n.nextTask = m.nextTask := congrArg ScopeTree.nextTask h.tree
  simp only [Machine.ledger, h.tasks, h.stats, hnext]

theorem Moved.ledger {move : Move} (h : Moved m move n) (hmove : ∀ id, move ≠ .poll id) :
    ∃ count, n.ledger = m.ledger.enter count := by
  cases h with
  | aside _ ha => exact ⟨0, by rw [ha.ledger, Ledger.enter_zero]⟩
  | spawn _ ha _ ls =>
    rw [← ha.ledger]
    exact ledger_spawnAll _ ls
  | broadcast name sender => exact ledger_broadcast m name sender
  | load specs program =>
    refine ⟨0, ?_⟩
    rw [Ledger.enter_zero]
    exact ledger_halt m
  | start => exact ledger_start m
  | stop | close =>
    refine ⟨0, ?_⟩
    rw [Ledger.enter_zero]
    exact ledger_halt m
  | poll => exact absurd rfl (hmove _)

theorem Sound.step_move (h : m.Sound) (move : Move) :
    m.ledger.Step (m.turnOf move) (m.move move).ledger := by
  have hmoved := (moved_move m move).ledger
  cases move with
  | poll id =>
    simp only [turnOf, Machine.move]
    split
    · have hp := polled_poll (m.dequeue id) id
      cases ht : m.task? id with
      | none =>
        have hpoll : (m.dequeue id).poll id = m.dequeue id := by
          have ht' : (m.dequeue id).task? id = none := ht
          simp only [Machine.poll, ht']
        rw [hpoll, show (m.dequeue id).ledger = m.ledger.enter 0 from (Ledger.enter_zero _).symm]
        exact .idle 0
      | some t =>
        rw [Option.map_some, (mem_of_task? ht).2]
        exact (h.dequeue id).step_polled ht hp
    · have hidle := Ledger.Step.idle (b := m.ledger) 0
      rwa [Ledger.enter_zero] at hidle
  | _ =>
    obtain ⟨count, hcount⟩ := hmoved (by rintro id ⟨⟩)
    rw [hcount]
    exact .idle count

end Machine

end SpriteStage
