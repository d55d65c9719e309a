import SpriteStage.Proofs.Machine.Ledger

/-!
Where every task is.

After any moves, the tasks that have started are those that have completed, those that have been
cancelled and those in the table, each once. Their numbers are given out from 1 on without a gap. In
the table a task is ready until its first turn and suspended from then on; only while it has a turn
it is the one that is running. No task in the table is over.
-/

namespace SpriteStage.Machine

variable {m : Machine}

structure Accounted (m : Machine) : Prop where
  spawned : m.stats.spawned = m.stats.completed + m.stats.cancelled + m.tasks.length
  failed : m.stats.failed ≤ m.stats.completed
  numbered : m.nextTask = m.stats.spawned + 1
  below : ∀ t ∈ m.tasks, t.id < m.nextTask
  increasing : m.tasks.Pairwise (·.id < ·.id)

theorem Sound.accounted (h : m.Sound) (hb : m.ledger.Balanced) : m.Accounted := by
  have ho := h.ordered
  refine ⟨?_, hb.failed, hb.numbered, fun t ht => ?_, ?_⟩
  · simpa only [ledger, List.length_map] using hb.spawned
  · refine ho.below t.id ?_
    rw [ids_ledger]
    exact List.mem_map_of_mem ht
  · have hincreasing := ho.increasing
    rw [ids_ledger, List.pairwise_map] at hincreasing
    exact hincreasing

theorem Reachable.balanced (h : m.Reachable) : m.ledger.Balanced := by
  apply h.sound_invariant (P := fun n => n.ledger.Balanced)
  · exact fun options => ⟨rfl, Nat.le_refl 0, rfl⟩
  · intro n move hsound hbalanced
    exact (hsound.step_move move).balanced hbalanced hsound.ordered

/-! ### Along a run -/

/-- The numbers that come into the table by a move. -/
def newIds (m : Machine) (move : Move) : List TaskId :=
  ((m.move move).tasks.map (·.id)).filter fun i => !(m.tasks.map (·.id)).contains i

def newIdsAlong (m : Machine) : List Move → List TaskId
  | [] => []
  | move :: rest => m.newIds move ++ (m.move move).newIdsAlong rest

def turnsAlong (m : Machine) : List Move → List TaskId
  | [] => []
  | move :: rest => (m.turnOf move).toList ++ (m.move move).turnsAlong rest

theorem Sound.newIdsAlong (h : m.Sound) (moves : List Move) :
    ∃ count, (m.after moves).nextTask = m.nextTask + count ∧
      m.newIdsAlong moves = List.range' m.nextTask count := by
  induction moves generalizing m with
  | nil => exact ⟨0, rfl, rfl⟩
  | cons move rest ih =>
    obtain ⟨first, hfirst, hnew⟩ := (h.step_move move).fresh h.ordered
    obtain ⟨more, hmore, hrest⟩ := ih (h.move move)
    have hnext : (m.move move).nextTask = m.nextTask + first := hfirst
    rw [ids_ledger, ids_ledger] at hnew
    refine ⟨first + more, ?_, ?_⟩
    · rw [← Nat.add_assoc, ← hnext]
      exact hmore
    · rw [Machine.newIdsAlong, hrest, hnext, newIds, hnew]
      exact List.range'_append_1

theorem new_ids_are_all (options : Options) (moves : List Move) :
    (Machine.new options).newIdsAlong moves =
      List.range' 1 ((Machine.new options).after moves).stats.spawned := by
  have hm : ((Machine.new options).after moves).Reachable := ⟨options, moves, rfl⟩
  obtain ⟨count, hcount, hids⟩ := (Sound.new options).newIdsAlong moves
  have hnext : 1 + count = ((Machine.new options).after moves).stats.spawned + 1 :=
    hcount.symm.trans hm.balanced.numbered
  rw [Nat.add_comm] at hnext
  rw [← Nat.add_right_cancel hnext]
  exact hids

theorem Sound.settled_after {turns : List TaskId} (h : m.Sound) (hs : m.ledger.Settled turns)
    (moves : List Move) : (m.after moves).ledger.Settled (turns ++ m.turnsAlong moves) := by
  induction moves generalizing m turns with
  | nil =>
    rw [turnsAlong, List.append_nil]
    exact hs
  | cons move rest ih =>
    have hmove := (h.step_move move).settled hs h.ordered
    rw [turnsAlong, ← List.append_assoc]
    exact ih (h.move move) hmove

/-! ### In the middle of a turn -/

theorem ledger_at_moment {move : Move} {k : Moment} (hk : k ∈ m.moveTrace move) :
    ∃ t ∈ m.tasks, move = .poll t.id ∧
      ∃ count, k.machine.ledger = (m.ledger.mark t.id .running).enter count := by
  obtain ⟨id, t, ks, rfl, ht, _, hp⟩ := turn_of_mem_moveTrace hk
  obtain ⟨hmem, rfl⟩ := mem_of_task? ht
  exact ⟨t, hmem, rfl, turn_ledger (m := m.dequeue t.id) hp⟩

theorem Reachable.accounted_at_moment {turns : List TaskId} {move : Move} {k : Moment}
    (h : m.Reachable) (hs : m.ledger.Settled turns) (hk : k ∈ m.moveTrace move) :
    k.machine.Accounted ∧ ∃ t ∈ m.tasks, move = .poll t.id ∧ t.id ∈ k.machine.tasks.map (·.id) ∧
      ∀ u ∈ k.machine.tasks,
        (u.state = .running ↔ u.id = t.id) ∧ u.state ≠ .completed ∧ u.state ≠ .cancelled := by
  obtain ⟨t, ht, hmove, count, hledger⟩ := ledger_at_moment hk
  have hid : t.id ∈ m.ledger.ids := by
    rw [ids_ledger]
    exact List.mem_map_of_mem ht
  have hbalanced : k.machine.ledger.Balanced := by
    rw [hledger]
    exact (h.balanced.mark t.id .running).enter count
  refine ⟨(h.sound.at_moment hk).1.accounted hbalanced, t, ht, hmove, ?_, fun u hu => ?_⟩
  · rw [← ids_ledger, hledger, Ledger.ids_enter, Ledger.ids_mark]
    exact List.mem_append_left _ hid
  · refine Ledger.states_of_turn hs h.sound.ordered hid count (u.id, u.state) ?_
    rw [← hledger]
    exact List.mem_map_of_mem hu

/-! ### The accounts -/

theorem tasks_are_accounted (options : Options) (moves : List Move) :
    let new := Machine.new options
    let m := new.after moves
    m.Accounted ∧
    new.newIdsAlong moves = List.range' 1 m.stats.spawned ∧
    (∀ t ∈ m.tasks, t.state = .ready ∧ t.id ∉ new.turnsAlong moves ∨
      t.state = .suspended ∧ t.id ∈ new.turnsAlong moves) ∧
    ∀ move, ∀ k ∈ m.moveTrace move, k.machine.Accounted ∧
      ∃ t ∈ m.tasks, move = .poll t.id ∧ t.id ∈ k.machine.tasks.map (·.id) ∧
        ∀ u ∈ k.machine.tasks,
          (u.state = .running ↔ u.id = t.id) ∧ u.state ≠ .completed ∧ u.state ≠ .cancelled := by
  intro new m
  have hm : m.Reachable := ⟨options, moves, rfl⟩
  have hnew : new.ledger.Settled [] := ⟨nofun, nofun⟩
  have hsettled : m.ledger.Settled (new.turnsAlong moves) :=
    (Sound.new options).settled_after hnew moves
  refine ⟨hm.sound.accounted hm.balanced, new_ids_are_all options moves, fun t ht => ?_,
    fun move k hk => hm.accounted_at_moment hsettled hk⟩
  exact hsettled.rows (t.id, t.state) (List.mem_map_of_mem ht)

end SpriteStage.Machine
