import SpriteStage.Proofs.Machine.Resumption
import SpriteStage.Proofs.Machine.Stopping

/-!
A turn goes through a script once.

The frames of a task tell where in its script it goes on (`Rests`), and every move keeps that so
(`rests_move`). In its turn the task comes to no place of the script twice, and then it is gone or
waits.
-/

namespace SpriteStage.Machine

/-! ### Polls -/

/-- The marks belong to the frames of the task, and tell where in the body it goes on. -/
structure Rests (t : Task) (body : List Stmt) (marks : List Mark) : Prop where
  frames : marks.map (·.frame) = t.frames
  within : WithinBody 0 body marks

theorem rests_fresh {t : Task} {body : List Stmt} (h : t.frames = [.block body]) :
    Rests t body [⟨0, .block body⟩] :=
  ⟨h.symm, .start 0 body⟩

/-- The visits of a task's turn. A stopped task only ends. -/
def pollVisits (m : Machine) (t : Task) (marks : List Mark) : List Place :=
  if m.isStopped t.token then []
  else marksVisits ⟨t.id, t.entity⟩ (m.setTask t.id ({ · with state := .running })) marks

variable {m n : Machine} {t : Task} {body : List Stmt} {marks : List Mark}

theorem Rests.visits_sublist (h : Rests t body marks) (m : Machine) :
    (m.pollVisits t marks).Sublist (placesOf 0 body) := by
  unfold pollVisits
  split
  · exact List.nil_sublist _
  · exact h.within.visits_sublist _ _

theorem Rests.matches_pollVisits (h : Rests t body marks) (ht : m.task? t.id = some t) :
    Matches (m.pollVisits t marks) (m.pollTrace t.id) := by
  simp only [pollVisits, pollTrace, ht]
  split
  · rfl
  · rw [← h.frames]
    exact matches_marksVisits _ _ marks

/-- Whoever has handed control back is in a queue for it. -/
def Awaits (m : Machine) (id : TaskId) : Prop :=
  id ∈ m.yielded ∨ ∃ wait ∈ m.waits, wait.task = id

theorem awaits_suspend (m : Machine) (id : TaskId) (pause : Pause) (frames : List Frame) :
    (m.suspend id pause frames).Awaits id := by
  cases pause with
  | yield => exact .inl (List.mem_append_right _ List.mem_cons_self)
  | sleep span => exact .inr ⟨_, List.mem_append_right _ List.mem_cons_self, rfl⟩
  | mouse ticket => exact .inr ⟨_, List.mem_append_right _ List.mem_cons_self, rfl⟩

theorem tasks_suspend (m : Machine) (id : TaskId) (pause : Pause) (frames : List Frame) :
    (m.suspend id pause frames).tasks =
      (m.setTask id fun t => { t with state := .suspended, frames }).tasks := by
  cases pause <;> rfl

theorem eq_of_mem_suspend {id : TaskId} {pause : Pause} {frames : List Frame} {u : Task}
    (hu : u ∈ (m.suspend id pause frames).tasks) (hid : u.id = id) :
    ∃ v ∈ m.tasks, v.id = id ∧ u = { v with state := .suspended, frames } := by
  rw [tasks_suspend] at hu
  obtain ⟨v, hv, rfl⟩ := List.mem_map.1 hu
  by_cases hvid : v.id = id
  · exact ⟨v, hv, hvid, if_pos hvid⟩
  · rw [if_neg hvid] at hid
    exact absurd hid hvid

theorem not_mem_finish (m : Machine) (t : Task) (ending : Ending ScriptError) :
    ∀ u ∈ (m.finish t ending).tasks, u.id ≠ t.id := by
  obtain ⟨world, stats, he⟩ := finish_shape m t ending
  intro u hu
  rw [he] at hu
  simpa using (List.mem_filter.1 hu).2

theorem leaves_runFrames (h : Rests t body marks) (self : Self) (m : Machine) :
    Leaves (runFrames self m t.frames) (WithinBody 0 body) := by
  rw [runFrames_eq_resume, ← h.frames]
  refine (h.within.leaves self m).andThen [] (fun n => leaves_ended n _) fun marks hmarks => ?_
  rw [List.append_nil]
  exact hmarks

/-- After its turn a task is gone, or it waits and can go on at a place of its script. -/
theorem Rests.handsBack (h : Rests t body marks) (ht : m.task? t.id = some t) :
    ∀ u ∈ (m.poll t.id).tasks, u.id = t.id →
      u.state = .suspended ∧ (m.poll t.id).Awaits t.id ∧ ∃ left, Rests u body left := by
  intro u hu hid
  have hgone : ∀ n ending, u ∉ (finish n t ending).tasks :=
    fun n ending hu => not_mem_finish n t ending u hu hid
  have hleaves := leaves_runFrames h ⟨t.id, t.entity⟩ (m.setTask t.id ({ · with state := .running }))
  simp only [poll, ht] at hu ⊢
  split at hu
  · exact absurd hu (hgone _ _)
  next hs =>
    rw [if_neg hs]
    generalize runFrames _ _ t.frames = step at hu hleaves ⊢
    cases step with
    | done n => exact absurd hu (hgone _ _)
    | ended n ending => exact absurd hu (hgone _ _)
    | paused n pause frames =>
      obtain ⟨left, hleft, hwithin⟩ := hleaves n pause frames rfl
      obtain ⟨v, -, -, rfl⟩ := eq_of_mem_suspend hu hid
      exact ⟨rfl, awaits_suspend n t.id pause frames, left, hleft, hwithin⟩

/-! ### Runs -/

/-- Of a task that was there before, nothing but its state has changed, and a new one is at the
beginning of its script. -/
structure Keeps (id : TaskId) (m n : Machine) : Prop where
  nextTask : m.nextTask ≤ n.nextTask
  tasks : ∀ u ∈ n.tasks, u.id = id →
    (∃ t ∈ m.tasks, t.leaf = u.leaf ∧ t.frames = u.frames) ∨
      m.nextTask ≤ id ∧ ∃ body, u.frames = [.block body]

namespace Keeps

variable {id : TaskId}

theorem of_eq (ht : n.tasks = m.tasks) (hn : n.nextTask = m.nextTask) : Keeps id m n :=
  ⟨Nat.le_of_eq hn.symm, fun u hu _ => .inl ⟨u, ht ▸ hu, rfl, rfl⟩⟩

theorem trans {l : Machine} (h : Keeps id m l) (h' : Keeps id l n) : Keeps id m n where
  nextTask := Nat.le_trans h.nextTask h'.nextTask
  tasks u hu hid := by
    rcases h'.tasks u hu hid with ⟨v, hv, hleaf, hframes⟩ | ⟨hnew, hbody⟩
    · have hvid : v.id = id := (congrArg Leaf.id hleaf).trans hid
      rw [← hleaf, ← hframes]
      exact h.tasks v hv hvid
    · exact .inr ⟨Nat.le_trans h.nextTask hnew, hbody⟩

theorem spawn (m : Machine) (entity : EntityId) (script : Script) :
    Keeps id m (m.spawn entity script) := by
  unfold Machine.spawn
  split
  · exact .of_eq rfl rfl
  · split
    · exact .of_eq rfl rfl
    · refine ⟨Nat.le_succ _, fun u hu hid => ?_⟩
      rcases List.mem_append.1 hu with hu | hu
      · exact .inl ⟨u, hu, rfl, rfl⟩
      · cases List.mem_singleton.1 hu
        exact .inr ⟨Nat.le_of_eq hid, script.body, rfl⟩

theorem spawnAll (m : Machine) (ls : List Listener) : Keeps id m (m.spawnAll ls) := by
  induction ls generalizing m with
  | nil => exact .of_eq rfl rfl
  | cons l rest ih => exact (spawn m l.entity l.script).trans (ih _)

theorem broadcast (m : Machine) (name : String) (sender : EntityId) :
    Keeps id m (m.broadcast name sender) := by
  have hworld : ∀ world, Keeps id m { m with world } := fun _ => .of_eq rfl rfl
  unfold Machine.broadcast
  split
  · exact (hworld _).trans (spawnAll _ _)
  · exact .of_eq rfl rfl

theorem start (m : Machine) : Keeps id m m.start := by
  obtain ⟨scopes, serial, ho⟩ := opened_shape m
  have hopened : Keeps id m m.opened := by
    rw [ho]
    exact .of_eq rfl rfl
  rw [start_eq]
  exact hopened.trans (spawnAll _ _)

theorem effect {self : Self} (h : Effect self m n) : Keeps id m n := by
  cases h with
  | broadcast message => exact broadcast m message self.entity
  | stopOthers =>
    rw [stopOthers]
    obtain ⟨stopped, waits, ready, requests, he⟩ := stopTasks_shape m
      (m.tasks.filter fun t => t.entity == self.entity && t.id != self.task)
    rw [he]
    exact .of_eq rfl rfl
  | _ => exact .of_eq rfl rfl

theorem path {self : Self} {ms : List Moment} (h : Path self m ms n) : Keeps id m n := by
  induction h with
  | refl => exact .of_eq rfl rfl
  | effect he _ ih => exact (effect he).trans ih
  | @stmt m _ _ s hs _ ih =>
    have hcounted : Keeps id m m.counted := .of_eq rfl rfl
    exact hcounted.trans ih

theorem finish (m : Machine) (t : Task) (ending : Ending ScriptError) :
    Keeps id m (m.finish t ending) := by
  obtain ⟨world, stats, he⟩ := finish_shape m t ending
  rw [he]
  exact ⟨Nat.le_refl _, fun u hu _ => .inl ⟨u, (List.mem_filter.1 hu).1, rfl, rfl⟩⟩

theorem setTask (m : Machine) {other : TaskId} (h : other ≠ id) {f : Task → Task}
    (hf : ∀ t, (f t).id = t.id) : Keeps id m (m.setTask other f) := by
  refine ⟨Nat.le_refl _, fun u hu hid => ?_⟩
  obtain ⟨t, ht, rfl⟩ := List.mem_map.1 hu
  by_cases ho : t.id = other
  · rw [if_pos ho, hf, ho] at hid
    exact absurd hid h
  · rw [if_neg ho]
    exact .inl ⟨t, ht, rfl, rfl⟩

theorem polled {other : TaskId} {ms : List Moment} (h : other ≠ id) (hp : Polled m other ms n) :
    Keeps id m n := by
  have hset : Keeps id m (m.setTask other ({ · with state := .running })) := setTask m h fun _ => rfl
  cases hp with
  | absent => exact .of_eq rfl rfl
  | stopped => exact finish m _ _
  | @paused t _ n ht hs hpath pause frames =>
    have hsuspend : Keeps id n (n.suspend other pause frames) := by
      have hframes : Keeps id n (n.setTask other fun t => { t with state := .suspended, frames }) :=
        setTask n h fun _ => rfl
      cases pause <;> exact hframes.trans (.of_eq rfl rfl)
    exact (hset.trans (path hpath)).trans hsuspend
  | ended ht hs hpath ending => exact (hset.trans (path hpath)).trans (finish _ _ ending)
  | @stoppedAll t _ n ht hs hpath =>
    have hstop : Keeps id n n.counted.stopAll := .of_eq rfl rfl
    exact ((hset.trans (path hpath)).trans hstop).trans (finish _ _ _)
  | @stoppedSprite t _ n ht hs hpath =>
    have hstop : Keeps id n (n.counted.stopEntity t.entity) := by
      obtain ⟨scopes, nextSerial, stopped, waits, ready, requests, he⟩ :=
        stopEntity_shape n.counted t.entity
      rw [he]
      exact .of_eq rfl rfl
    exact ((hset.trans (path hpath)).trans hstop).trans (finish _ _ _)

theorem moved {move : Move} (h : move ≠ .poll id) (hm : Moved m move n) : Keeps id m n := by
  have haside : ∀ {l : Machine}, m.Aside l → Keeps id m l :=
    fun ha => .of_eq ha.tasks (congrArg ScopeTree.nextTask ha.tree)
  cases hm with
  | aside _ ha => exact haside ha
  | spawn _ ha _ ls => exact (haside ha).trans (spawnAll _ ls)
  | broadcast name sender => exact broadcast m name sender
  | load | stop | close => exact .of_eq rfl rfl
  | start => exact start m
  | @poll other _ hp =>
    have hdequeue : Keeps id m (m.dequeue other) := .of_eq rfl rfl
    exact hdequeue.trans (polled (fun he => h (he ▸ rfl)) hp)

end Keeps

/-- The task, if it is still there, can go on at a place of the script. -/
structure Resting (id : TaskId) (body : List Stmt) (m : Machine) : Prop where
  old : id < m.nextTask
  rests : ∀ u ∈ m.tasks, u.id = id → ∃ marks, Rests u body marks

theorem Rests.of_frames {u : Task} (h : Rests t body marks) (hu : t.frames = u.frames) :
    Rests u body marks :=
  ⟨h.frames.trans hu, h.within⟩

/-- After a move a task is at some place of the script of which it was at a place before, or it is
new and at the beginning. -/
theorem rests_move (move : Move) {u : Task} (hu : u ∈ (m.move move).tasks) :
    (∃ t ∈ m.tasks, t.id = u.id ∧
      ∀ body marks, Rests t body marks → ∃ left, Rests u body left) ∨
    m.nextTask ≤ u.id ∧ ∃ body, u.frames = [.block body] := by
  by_cases hmove : move = .poll u.id
  · subst hmove
    have hsame : u ∈ m.tasks → ∃ t ∈ m.tasks, t.id = u.id ∧
        ∀ body marks, Rests t body marks → ∃ left, Rests u body left :=
      fun hu => ⟨u, hu, rfl, fun body marks h => ⟨marks, h⟩⟩
    simp only [Machine.move] at hu
    split at hu
    · cases ht : (m.dequeue u.id).task? u.id with
      | none =>
        rw [poll, ht] at hu
        exact .inl (hsame hu)
      | some t =>
        obtain ⟨hmem, hid⟩ := mem_of_task? ht
        rw [← hid] at ht hu
        exact .inl ⟨t, hmem, hid, fun body marks h => (h.handsBack ht u hu hid.symm).2.2⟩
    · exact .inl (hsame hu)
  · have hkeeps := Keeps.moved hmove (moved_move m move)
    rcases hkeeps.tasks u hu rfl with ⟨t, ht, hleaf, hframes⟩ | hnew
    · exact .inl ⟨t, ht, congrArg Leaf.id hleaf, fun body marks h => ⟨marks, h.of_frames hframes⟩⟩
    · exact .inr hnew

theorem Resting.move {id : TaskId} (h : Resting id body m) (move : Move) :
    Resting id body (m.move move) := by
  refine ⟨Nat.lt_of_lt_of_le h.old (moved_move m move).later.nextTask, fun u hu hid => ?_⟩
  rcases rests_move move hu with ⟨t, ht, htu, hrests⟩ | ⟨hnew, -⟩
  · obtain ⟨marks, hmarks⟩ := h.rests t ht (htu.trans hid)
    exact hrests body marks hmarks
  · -- The number of a new task is one that no task has had.
    exact absurd h.old (Nat.not_lt.2 (hid ▸ hnew))

/-- Every task is at some place of a script. -/
theorem Reachable.rests (hm : m.Reachable) : ∀ t ∈ m.tasks, ∃ body marks, Rests t body marks := by
  refine hm.invariant (P := fun m => ∀ t ∈ m.tasks, ∃ body marks, Rests t body marks)
    (fun _ => nofun) fun n move hn u hu => ?_
  rcases rests_move move hu with ⟨t, ht, -, hrests⟩ | ⟨-, body, hbody⟩
  · obtain ⟨body, marks, hmarks⟩ := hn t ht
    exact ⟨body, hrests body marks hmarks⟩
  · exact ⟨body, _, rests_fresh hbody⟩

theorem Sound.resting (h : m.Sound) (ht : t ∈ m.tasks) (hfresh : t.frames = [.block body]) :
    Resting t.id body m := by
  have hleaf := (h.tree.leaf t.leaf (List.mem_map_of_mem ht)).1
  refine ⟨hleaf, fun u hu hid => ?_⟩
  have hapart := List.pairwise_map.1 h.tree.leaves_apart
  rw [eq_of_pairwise_lt (f := Task.id) hapart hu ht hid]
  exact ⟨_, rests_fresh hfresh⟩

theorem Reachable.rests_after (hm : m.Reachable) (ht : t ∈ m.tasks)
    (hfresh : t.frames = [.block body]) (moves : List Move) :
    ∀ u ∈ (m.after moves).tasks, u.id = t.id → ∃ marks, Rests u body marks := by
  have hafter : Resting t.id body (m.after moves) :=
    after_invariant (P := Resting t.id body) (fun n move _ hn => hn.move move)
      (hm.sound.resting ht hfresh)
  exact hafter.rests

/-! ### The theorem -/

/-- A turn comes to the places in the log, in their order. It executes their statements, and then the
task is gone or waits. -/
structure Passes (m : Machine) (t : Task) (body : List Stmt) (log : List Place) : Prop where
  once : log.Nodup
  visited : log.Sublist (placesOf 0 body)
  executed : (m.pollTrace t.id).map (·.stmt) = log.filterMap Place.stmt?
  counted : (m.poll t.id).statements = m.statements + (m.pollTrace t.id).length
  bounded : (m.pollTrace t.id).length ≤ sizeOfBody body
  handsBack : ∀ u ∈ (m.poll t.id).tasks, u.id = t.id →
    u.state = .suspended ∧ (m.poll t.id).Awaits t.id ∧ ∃ left, Rests u body left

theorem Rests.passes (h : Rests t body marks) (ht : m.task? t.id = some t) :
    m.Passes t body (m.pollVisits t marks) where
  once := (nodup_places.2 body 0).sublist (h.visits_sublist m)
  visited := h.visits_sublist m
  executed := (h.matches_pollVisits ht).symm
  counted := (polled_poll m t.id).statements
  bounded := by
    have hsublist := ((h.visits_sublist m).filterMap Place.stmt?).length_le
    rw [length_stmts.2, h.matches_pollVisits ht, List.length_map] at hsublist
    exact hsublist
  handsBack := h.handsBack ht

/-- In one turn, from wherever it goes on and whatever the machine, a task comes to no place of its
script twice: it executes no statement twice, begins no two passes of a loop, and looks at no
condition twice that it waits for. A task goes on at such places only. -/
theorem turn_visits_once (body : List Stmt) :
    (∀ (m : Machine) (t : Task) (marks : List Mark), m.task? t.id = some t → Rests t body marks →
      m.Passes t body (m.pollVisits t marks)) ∧
    ∀ m : Machine, m.Reachable → ∀ t ∈ m.tasks, t.frames = [.block body] →
      ∀ moves, ∀ u ∈ (m.after moves).tasks, u.id = t.id → ∃ marks, Rests u body marks := by
  exact ⟨fun m t marks ht h => h.passes ht,
    fun m hm t ht hfresh moves => hm.rests_after ht hfresh moves⟩

namespace Sample

def blinks : List Stmt :=
  [.forever [.act .vanish, .repeatUntil (.literal (.bool false)) [.act .appear]]]

def blinker : Machine :=
  (Machine.new .standard).after
    [.command (.loadProgram [cat] ⟨[{ EntityProgram.empty with onStart := some ⟨"a", blinks⟩ }]⟩),
      .command .start]

end Sample

-- After its first turn the cat is in the inner loop, where the next pass is due.
theorem turn_visits_once_sample :
    let m := Sample.blinker.after [.poll 1, .resume]
    let t := m.tasks.get ⟨0, by decide +kernel⟩
    let never := Expr.literal (.bool false)
    let marks : List Mark :=
      [⟨2, .again (.untilTrue never) [.act .appear]⟩, ⟨4, .block []⟩,
        ⟨0, .loop .always [.act .vanish, .repeatUntil never [.act .appear]]⟩, ⟨4, .block []⟩]
    Rests t Sample.blinks marks ∧ m.pollVisits t marks = [.pass 2, .stmt 3 (.act .appear)] ∧
      m.Passes t Sample.blinks (m.pollVisits t marks) ∧
      ∀ moves, ∀ u ∈ (Sample.blinker.after moves).tasks, u.id = 1 →
        ∃ marks, Rests u Sample.blinks marks := by
  intro m t never marks
  have hinner : WithinBody 2 [.repeatUntil never [.act .appear]]
      [⟨2, .again (.untilTrue never) [.act .appear]⟩, ⟨4, .block []⟩] := .here [] (.again 2 rfl _)
  have houter : Within 0 (.forever [.act .vanish, .repeatUntil never [.act .appear]])
      (marks.take 3) := .pass rfl .always (.there (.act .vanish) hinner)
  have hrests : Rests t Sample.blinks marks := ⟨rfl, .here [] houter⟩
  refine ⟨hrests, rfl, (turn_visits_once Sample.blinks).1 m t marks rfl hrests, ?_⟩
  exact (turn_visits_once Sample.blinks).2 Sample.blinker ⟨_, _, rfl⟩
    (Sample.blinker.tasks.get ⟨0, by decide +kernel⟩) (List.get_mem _ _) rfl

end SpriteStage.Machine
