import SpriteStage.Proofs.Machine.Desk
import SpriteStage.Proofs.Machine.Stopping
import SpriteStage.Proofs.Machine.TurnInvariant
import SpriteStage.Proofs.World.Requests

/-!
Requests for the mouse.

The desk of a machine is kept by every move (`Sound.attends_move`), so a response finds just the
tasks that still wait for one. A wait ends by a response, when its time has come, or when its task
is stopped, and not in any other way; what other tasks ask for does not touch it.
-/

namespace SpriteStage.Machine

/-! ### Desks -/

def desk (m : Machine) : Desk where
  openTickets := m.world.openTickets
  nextTicket := m.world.nextTicket
  waits := m.waits
  ready := m.ready
  yielded := m.yielded
  nextTask := m.nextTask

variable {m n l : Machine}

theorem desk_of_asked {world : World} (h : world.asked = m.world.asked) (random : SplitMix) :
    { m with random, world }.desk = m.desk := by
  simp only [desk, World.openTickets_of_asked h, (Prod.mk.inj h).2]

theorem desk_wake (m : Machine) (ended : List Wait) : (m.wake ended).desk = m.desk.wake ended := by
  have hopen := World.openTickets_closeRequests m.world (ended.filterMap (·.ticket))
  have hnext : (m.wake ended).world.nextTicket = m.world.nextTicket := by
    obtain ⟨waits, ready, requests, he⟩ := wake_shape m ended
    rw [he]
  simp only [desk, hnext]
  simp only [wake, hopen, Desk.wake]

theorem desk_spawnAll (m : Machine) (ls : List Listener) :
    ∃ count, (m.spawnAll ls).desk = m.desk.enter count := by
  induction ls generalizing m with
  | nil => exact ⟨0, (Desk.enter_zero m.desk).symm⟩
  | cons l rest ih =>
    obtain ⟨count, hrest⟩ := ih (m.spawn l.entity l.script)
    have hfirst : (m.spawn l.entity l.script).desk = m.desk ∨
        (m.spawn l.entity l.script).desk = m.desk.enter 1 := by
      unfold spawn
      split
      · exact .inl rfl
      · split
        · exact .inl rfl
        · exact .inr rfl
    rcases hfirst with hfirst | hfirst
    · exact ⟨count, hrest.trans (by rw [hfirst])⟩
    · exact ⟨1 + count, hrest.trans (by rw [hfirst, Desk.enter_enter])⟩

theorem desk_broadcast (m : Machine) (name : String) (sender : EntityId) :
    ∃ count, (m.broadcast name sender).desk = m.desk.enter count := by
  unfold broadcast
  split
  · exact desk_spawnAll _ _
  · exact ⟨0, (Desk.enter_zero m.desk).symm⟩

theorem desk_finish (m : Machine) (t : Task) (ending : Ending ScriptError) :
    (m.finish t ending).desk = m.desk ∧ (m.finish t ending).world.mouse = m.world.mouse := by
  cases ending with
  | completed | cancelled => exact ⟨rfl, rfl⟩
  | failed e =>
    simp only [finish, World.reportFailure]
    repeat' split
    all_goals exact ⟨rfl, rfl⟩

/-! ### Stopped waits -/

theorem isStoppedWait_wake (m : Machine) (ended : List Wait) (w : Wait) :
    (m.wake ended).isStoppedWait w = m.isStoppedWait w := by
  obtain ⟨waits, ready, requests, he⟩ := wake_shape m ended
  rw [he]
  rfl

theorem Sound.isStoppedWait_halt (h : m.Sound) (w : Wait) : m.halt.isStoppedWait w = true := by
  unfold isStoppedWait
  cases ht : m.halt.task? w.task with
  | none => rfl
  | some t =>
    have hmem : t ∈ m.tasks := (mem_of_task? ht).1
    exact h.isStopped_halt hmem

/-- No two tasks have one number. -/
def Apart (m : Machine) : Prop :=
  m.tree.leaves.Pairwise fun l l' => l.id < l'.id

/-- A wait whose task has been stopped stays one, since the number of its task is not given out
again. -/
theorem isStoppedWait_later {w : Wait} (hm : m.Apart) (h : m.tree.Later n.tree)
    (hw : w.task < m.nextTask) (hs : m.isStoppedWait w = true) : n.isStoppedWait w = true := by
  unfold isStoppedWait
  cases hn : n.task? w.task with
  | none => rfl
  | some u =>
    obtain ⟨hu, hid⟩ := mem_of_task? hn
    rcases h.leaves u.leaf (List.mem_map_of_mem hu) with hold | hnew
    · cases ht : m.task? w.task with
      | none =>
        obtain ⟨t, ht', he⟩ := List.mem_map.1 hold
        have hne := List.find?_eq_none.1 ht t ht'
        have hsame : t.id = w.task := (congrArg Leaf.id he).trans hid
        exact absurd (beq_iff_eq.2 hsame) hne
      | some t =>
        obtain ⟨hmem, htid⟩ := mem_of_task? ht
        have hleaf : u.leaf = t.leaf :=
          eq_of_pairwise_lt hm hold (List.mem_map_of_mem hmem) (hid.trans htid.symm)
        simp only [isStoppedWait, ht] at hs
        have hstopped := h.stopped t.leaf.token hs
        rw [← hleaf] at hstopped
        exact hstopped
    · rw [show u.leaf.id = w.task from hid] at hnew
      exact absurd hw (Nat.not_lt.2 hnew)

/-! ### As time goes by -/

/-- What becomes of waits and requests unless the host or the clock ends them: a wait ends only if
its task is stopped, and what is open later was open before or is new. -/
structure Since (m n : Machine) : Prop where
  later : m.tree.Later n.tree
  ready : ∀ id ∈ m.ready, id ∈ n.ready
  waits : ∀ w ∈ m.waits, w ∈ n.waits ∨ w.task ∈ n.ready ∧ n.isStoppedWait w = true
  nextTicket : m.world.nextTicket ≤ n.world.nextTicket
  tickets : ∀ ticket ∈ n.world.openTickets,
    ticket ∈ m.world.openTickets ∨ m.world.nextTicket ≤ ticket
  mouse : n.world.mouse = m.world.mouse

namespace Since

theorem of_enter {count : Nat} (hl : m.tree.Later n.tree) (hd : n.desk = m.desk.enter count)
    (hm : n.world.mouse = m.world.mouse) : Since m n := by
  obtain ⟨hopen, hnext, hwaits, hready, -, -⟩ := Desk.mk.inj hd
  refine ⟨hl, fun id hid => ?_, fun w hw => .inl ?_, Nat.le_of_eq hnext.symm,
    fun ticket ht => .inl ?_, hm⟩
  · rw [hready]
    exact List.mem_append_left _ hid
  · rwa [hwaits]
  · rwa [hopen] at ht

theorem of_desk (hl : m.tree.Later n.tree) (hd : n.desk = m.desk)
    (hm : n.world.mouse = m.world.mouse) : Since m n :=
  of_enter hl (hd.trans (Desk.enter_zero m.desk).symm) hm

/-- The waits end that `p` picks out, and their tasks have been stopped. -/
theorem of_wake {p : Wait → Bool} (hl : m.tree.Later n.tree)
    (hwaits : n.waits = m.waits.filter (!p ·))
    (hready : n.ready = m.ready ++ (m.waits.filter p).map (·.task))
    (hopen : ∀ ticket ∈ n.world.openTickets, ticket ∈ m.world.openTickets)
    (hnext : n.world.nextTicket = m.world.nextTicket)
    (hp : ∀ w, p w = true → n.isStoppedWait w = true)
    (hm : n.world.mouse = m.world.mouse) : Since m n := by
  refine ⟨hl, fun id hid => ?_, fun w hw => ?_, Nat.le_of_eq hnext.symm,
    fun ticket ht => .inl (hopen ticket ht), hm⟩
  · rw [hready]
    exact List.mem_append_left _ hid
  · cases hpw : p w with
    | true =>
      refine .inr ⟨?_, hp w hpw⟩
      rw [hready]
      exact List.mem_append_right _ (List.mem_map_of_mem (List.mem_filter.2 ⟨hw, hpw⟩))
    | false =>
      refine .inl ?_
      rw [hwaits]
      exact List.mem_filter.2 ⟨hw, by rw [hpw]; rfl⟩

theorem trans (h : Since m l) (h' : Since l n) (hl : l.Apart)
    (hw : ∀ w ∈ m.waits, w.task < m.nextTask) : Since m n where
  later := h.later.trans h'.later
  ready id hid := h'.ready id (h.ready id hid)
  waits w hmem := by
    rcases h.waits w hmem with hmem' | ⟨hready, hs⟩
    · exact h'.waits w hmem'
    · have hlt : w.task < l.nextTask := Nat.lt_of_lt_of_le (hw w hmem) h.later.nextTask
      exact .inr ⟨h'.ready _ hready, isStoppedWait_later hl h'.later hlt hs⟩
  nextTicket := Nat.le_trans h.nextTicket h'.nextTicket
  tickets ticket ht := by
    rcases h'.tickets ticket ht with ht | ht
    · exact h.tickets ticket ht
    · exact .inr (Nat.le_trans h.nextTicket ht)
  mouse := h'.mouse.trans h.mouse

end Since

/-! ### Stops -/

theorem mouse_wake (m : Machine) (ended : List Wait) :
    (m.wake ended).world.mouse = m.world.mouse := by
  obtain ⟨waits, ready, requests, he⟩ := wake_shape m ended
  rw [he]

/-- What has just been stopped, before its waits end. -/
def stopping (m : Machine) (t : Token) : Machine :=
  { m with stopped := t :: m.stopped }

theorem desk_stop (m : Machine) (t : Token) :
    (m.stop t).desk = m.desk.wake (m.waits.filter (m.stopping t).isStoppedWait) :=
  desk_wake (m.stopping t) _

theorem since_stop (m : Machine) (t : Token) : Since m (m.stop t) := by
  obtain ⟨hopen, hnext, hwaits, hready, -, -⟩ := Desk.mk.inj (desk_stop m t)
  have hlater : m.tree.Later (m.stop t).tree := by
    rw [tree_stop]
    exact .stop m.tree t
  refine .of_wake hlater (hwaits.trans (Desk.waits_wake m.desk _)) hready (fun ticket ht => ?_)
    hnext (fun w hw => ?_) (mouse_wake (m.stopping t) _)
  · rw [hopen] at ht
    exact (List.mem_filter.1 ht).1
  · rw [← hw]
    exact isStoppedWait_wake (m.stopping t) _ w

theorem since_stopTasks (ts : List Task) (hm : m.Apart)
    (hw : ∀ w ∈ m.waits, w.task < m.nextTask) :
    Since m (ts.foldl (fun m t => m.stop t.token) m) := by
  induction ts generalizing m with
  | nil => exact .of_desk (.refl m.tree) rfl rfl
  | cons t rest ih =>
    have hwaits : ∀ w ∈ (m.stop t.token).waits, w.task < m.nextTask :=
      fun w hmem => hw w (List.mem_filter.1 hmem).1
    exact (since_stop m t.token).trans (ih hm hwaits) hm hw

theorem away_stopTasks {id : TaskId} (h : m.desk.Away id) (ts : List Task) :
    (ts.foldl (fun m t => m.stop t.token) m).desk.Away id := by
  induction ts generalizing m with
  | nil => exact h
  | cons t rest ih =>
    refine ih ?_
    rw [desk_stop]
    exact h.wake _

theorem since_stopEntity (id : EntityId) (hm : m.Apart) (hw : ∀ w ∈ m.waits, w.task < m.nextTask) :
    Since m (m.stopEntity id) := by
  have hopened : Since m (m.openScope id) :=
    .of_desk ⟨fun _ h => h, Nat.le_refl _, fun _ h => .inl h⟩ rfl rfl
  unfold stopEntity
  split
  next old _ => exact hopened.trans (since_stop (m.openScope id) old) hm hw
  · exact hopened

theorem away_stopEntity {task : TaskId} (h : m.desk.Away task) (id : EntityId) :
    (m.stopEntity id).desk.Away task := by
  unfold stopEntity
  split
  next old _ =>
    rw [desk_stop]
    exact h.wake _
  · exact h

theorem Sound.desk_halt (h : m.Sound) :
    m.halt.desk = m.desk.clear.wake (m.waits.filter fun _ => true) := by
  have hall : m.waits.filter ({ m with world := m.world.halt }.stopping m.run).isStoppedWait =
      m.waits.filter fun _ => true := by
    refine List.filter_congr fun w _ => ?_
    rw [← h.isStoppedWait_halt w]
    exact (isStoppedWait_wake ({ m with world := m.world.halt }.stopping m.run) _ w).symm
  have hstop := desk_stop { m with world := m.world.halt } m.run
  rw [hall] at hstop
  exact hstop

theorem Sound.since_halt (h : m.Sound) : Since m m.halt := by
  obtain ⟨hopen, hnext, hwaits, hready, -, -⟩ := Desk.mk.inj h.desk_halt
  have hlater : m.tree.Later m.halt.tree := by
    rw [tree_halt]
    exact .halt m.tree
  refine .of_wake hlater (hwaits.trans (Desk.waits_wake m.desk _)) hready (fun ticket ht => ?_)
    hnext (fun w _ => h.isStoppedWait_halt w) ?_
  · rw [hopen] at ht
    cases ht
  · rw [world_halt]
    rfl

theorem Sound.kept_halt (h : m.Sound) (hk : m.desk.Kept) : m.halt.desk.Kept := by
  rw [h.desk_halt]
  exact hk.clear_wake fun _ _ => rfl

theorem Sound.since_stopAll (h : m.Sound) : Since m m.stopAll :=
  have hhalt := h.since_halt
  ⟨hhalt.later, hhalt.ready, hhalt.waits, hhalt.nextTicket, hhalt.tickets, hhalt.mouse⟩

/-! ### Turns -/

theorem desk_asking (m : Machine) (self : Self) : (m.asking self).desk = m.desk.ask := by
  have hopen : (m.asking self).world.openTickets = m.world.openTickets ++ [m.world.nextTicket] :=
    World.openTickets_requestMouse m.world
  simp only [desk, hopen]
  rfl

theorem desk_askedInVain (m : Machine) (self : Self) :
    (m.askedInVain self).desk = m.desk.ask.close m.world.nextTicket := by
  have hopen : (m.askedInVain self).world.openTickets =
      (m.asking self).world.openTickets.filter (· != m.world.nextTicket) :=
    World.openTickets_closeRequest _ _
  rw [← desk_asking m self]
  simp only [desk, hopen]
  rfl

theorem since_asking (m : Machine) (self : Self) : Since m (m.asking self) := by
  obtain ⟨hopen, hnext, -⟩ := Desk.mk.inj (desk_asking m self)
  refine ⟨.refl m.tree, fun _ h => h, fun _ h => .inl h, ?_, fun ticket ht => ?_, rfl⟩
  · rw [hnext]
    exact Nat.le_succ _
  · rw [hopen] at ht
    rcases List.mem_append.1 ht with ht | ht
    · exact .inl ht
    · exact .inr (Nat.le_of_eq (List.mem_singleton.1 ht).symm)

theorem since_askedInVain (m : Machine) (self : Self) : Since m (m.askedInVain self) := by
  have hasking := since_asking m self
  have hopen : (m.askedInVain self).world.openTickets =
      (m.asking self).world.openTickets.filter (· != m.world.nextTicket) :=
    World.openTickets_closeRequest _ _
  refine ⟨.refl m.tree, fun _ h => h, fun _ h => .inl h, hasking.nextTicket, fun ticket ht => ?_,
    rfl⟩
  rw [hopen] at ht
  exact hasking.tickets ticket (List.mem_filter.1 ht).1

theorem since_suspend (m : Machine) (id : TaskId) (pause : Pause) (frames : List Frame) :
    Since m (m.suspend id pause frames) := by
  have hlater : m.tree.Later (m.suspend id pause frames).tree := by
    rw [tree_suspend]
    exact .refl m.tree
  cases pause with
  | yield => exact ⟨hlater, fun _ h => h, fun _ h => .inl h, Nat.le_refl _, fun _ h => .inl h, rfl⟩
  | sleep | mouse =>
    exact ⟨hlater, fun _ h => h, fun _ h => .inl (List.mem_append_left _ h), Nat.le_refl _,
      fun _ h => .inl h, rfl⟩

theorem since_finish (m : Machine) (t : Task) (ending : Ending ScriptError) :
    Since m (m.finish t ending) := by
  have hlater : m.tree.Later (m.finish t ending).tree := by
    rw [tree_finish]
    exact .remove m.tree t.id
  obtain ⟨hdesk, hmouse⟩ := desk_finish m t ending
  exact .of_desk hlater hdesk hmouse

/-- The task has begun its turn in the machine `m` and has come to `n`. -/
structure Underway (m : Machine) (t : Task) (n : Machine) : Prop where
  sound : n.Sound
  live : n.tree.Live t.leaf
  away : n.desk.Away t.id
  since : Since m n

/-- The turn of a task that began in the machine `m` is about to end in `n`. -/
structure Comes (m n : Machine) : Prop where
  sound : n.Sound
  kept : n.desk.Kept
  since : Since m n

/-- The task pauses. If it waits for the mouse, then it has just asked. -/
def Pauses (m : Machine) (t : Task) (n : Machine) : Pause → Prop
  | .mouse ticket =>
    ∃ l, Underway m t l ∧ n = l.asking ⟨t.id, t.entity⟩ ∧ ticket = l.world.nextTicket
  | _ => Underway m t n

section Turns

variable {t : Task}

theorem Underway.effect (h : Underway m t l) (hw : ∀ w ∈ m.waits, w.task < m.nextTask)
    (he : Effect ⟨t.id, t.entity⟩ l n) (ha : n.desk.Away t.id) (hs : Since l n) :
    Underway m t n :=
  ⟨h.sound.effect he, h.sound.live_effect he h.live rfl, ha,
    h.since.trans hs h.sound.tree.leaves_apart hw⟩

theorem Underway.edit (h : Underway m t l) (hw : ∀ w ∈ m.waits, w.task < m.nextTask)
    {world : World} (random : SplitMix) (he : l.world.Edited true false world) :
    Underway m t { l with random, world } := by
  have htree : { l with random, world }.tree = l.tree := by
    simp only [tree, he.acted.running, he.acted.length]
  have hdesk := desk_of_asked he.asked random
  refine ⟨h.sound.of_tree_eq he.acted rfl htree, ?_, ?_, ?_⟩
  · rw [htree]
    exact h.live
  · rw [hdesk]
    exact h.away
  · refine h.since.trans (.of_desk ?_ hdesk he.mouse_eq) h.sound.tree.leaves_apart hw
    rw [htree]
    exact .refl l.tree

theorem turnInvariant (m : Machine) (t : Task) (hw : ∀ w ∈ m.waits, w.task < m.nextTask) :
    TurnInvariant ⟨t.id, t.entity⟩ (Underway m t) (Pauses m t) (Comes m) where
  counted h :=
    ⟨h.sound.counted, h.live, h.away, h.since.later, h.since.ready, h.since.waits,
      h.since.nextTicket, h.since.tickets, h.since.mouse⟩
  edit random h he := h.edit hw random he
  broadcast {l} message h := by
    have he : Effect ⟨t.id, t.entity⟩ l (l.broadcast message t.entity) := .broadcast l message
    obtain ⟨count, hdesk⟩ := desk_broadcast l message t.entity
    refine h.effect hw he ?_ (.of_enter he.later hdesk he.edited.mouse_eq)
    rw [hdesk]
    exact h.away.enter count
  stopOthers {l} h :=
    h.effect hw (.stopOthers l) (away_stopTasks h.away _)
      (since_stopTasks _ h.sound.tree.leaves_apart h.away.kept.waits)
  askedInVain {l} h := by
    have hreq : Effect ⟨t.id, t.entity⟩ l (l.asking ⟨t.id, t.entity⟩) := .request l
    have hclose : Effect ⟨t.id, t.entity⟩ (l.asking ⟨t.id, t.entity⟩)
        (l.askedInVain ⟨t.id, t.entity⟩) := .closeRequest _ _
    have hsound := h.sound.effect hreq
    have hlive := h.sound.live_effect hreq h.live rfl
    refine ⟨hsound.effect hclose, hsound.live_effect hclose hlive rfl, ?_, ?_⟩
    · rw [desk_askedInVain]
      exact h.away.ask_close
    · exact h.since.trans (since_askedInVain l _) h.sound.tree.leaves_apart hw
  pause pause hpause h := by
    cases pause with
    | mouse ticket => exact absurd rfl (hpause ticket)
    | yield | sleep => exact h
  asking {l} h := ⟨l, h, rfl, rfl⟩
  ended h := ⟨h.sound, h.away.kept, h.since⟩
  stopAll h :=
    ⟨h.sound.stopAll, h.sound.kept_halt h.away.kept,
      h.since.trans h.sound.since_stopAll h.sound.tree.leaves_apart hw⟩
  stopEntity {l} h := by
    have hsince := since_stopEntity t.entity h.sound.tree.leaves_apart h.away.kept.waits
    exact ⟨h.sound.stopEntity h.live, (away_stopEntity h.away t.entity).kept,
      h.since.trans hsince h.sound.tree.leaves_apart hw⟩

theorem Sound.underway (h : m.Sound) (ha : m.desk.Away t.id) (ht : t ∈ m.tasks)
    (hs : m.isStopped t.token = false) :
    Underway m t (m.setTask t.id ({ · with state := .running })) := by
  have htree : (m.setTask t.id ({ · with state := .running })).tree = m.tree :=
    tree_setTask m t.id fun _ => rfl
  refine ⟨h.of_tree_eq (.refl m.world) rfl htree, ?_, ha, .of_desk ?_ rfl rfl⟩
  · rw [htree]
    exact ⟨List.mem_map_of_mem ht, hs⟩
  · rw [htree]
    exact .refl m.tree

/-- A turn keeps the desk, and ends no wait but by a stop. -/
theorem Sound.attended_poll (h : m.Sound) {id : TaskId} (ha : m.desk.Away id) :
    (m.poll id).desk.Kept ∧ Since m (m.poll id) := by
  have hw := ha.kept.waits
  have hfinish : ∀ n u ending, Comes m n →
      (n.finish u ending).desk.Kept ∧ Since m (n.finish u ending) := by
    intro n u ending hn
    rw [(desk_finish n u ending).1]
    exact ⟨hn.kept, hn.since.trans (since_finish n u ending) hn.sound.tree.leaves_apart hw⟩
  have hsuspend : ∀ {l : Machine} {u : Task} pause frames, Underway m u l →
      Since m (l.suspend u.id pause frames) := fun pause frames hl =>
    hl.since.trans (since_suspend _ _ pause frames) hl.sound.tree.leaves_apart hw
  have hself : Since m m := .of_desk (.refl m.tree) rfl rfl
  cases ht : m.task? id with
  | none =>
    rw [poll, ht]
    exact ⟨ha.kept, hself⟩
  | some t =>
    obtain ⟨hmem, rfl⟩ := mem_of_task? ht
    cases hs : m.isStopped t.token with
    | true =>
      simp only [poll, ht, hs, if_true]
      exact hfinish m t .cancelled ⟨h, ha.kept, hself⟩
    | false =>
      have hunderway := h.underway ha hmem hs
      rcases (turnInvariant m t hw).poll ht hs hunderway with
        ⟨n, ending, hn, he⟩ | ⟨n, pause, frames, hn, he⟩
      · rw [he]
        exact hfinish n t ending hn
      · rw [he]
        cases pause with
        | yield => exact ⟨hn.away.yield, hsuspend .yield frames hn⟩
        | sleep span => exact ⟨hn.away.sleep _, hsuspend (.sleep span) frames hn⟩
        | mouse ticket =>
          -- The desk is not kept while the request is open and nobody waits for it.
          obtain ⟨l, hl, rfl, rfl⟩ := hn
          have hapart : l.Apart := hl.sound.tree.leaves_apart
          have hasking := hl.since.trans (since_asking l ⟨t.id, t.entity⟩) hapart hw
          have hkept := hl.away.ask_wait (l.world.clock + l.options.mouseTimeout.millisUp)
          rw [← desk_asking l ⟨t.id, t.entity⟩] at hkept
          exact ⟨hkept, hasking.trans (since_suspend _ t.id _ frames) hapart hw⟩

end Turns

/-! ### Moves -/

end SpriteStage.Machine

namespace SpriteStage

/-- Where the mouse is, if the host says so. -/
def Move.mouse? : Move → Option (Stage.Point Float)
  | .command (.mousePosition x y) => some ⟨x, y⟩
  | _ => none

/-- The ways in which a wait ends with a move that comes to the machine `n`. -/
inductive Machine.Ends (move : Move) (n : Machine) (w : Wait) : Prop where
  | stopped (h : n.isStoppedWait w = true)
  | answered (h : move.mouse?.isSome = true) (ht : w.ticket.isSome = true)
  | timedOut (time : Nat) (h : move = .reach time) (hd : w.deadline ≤ time)

namespace Machine

variable {m n : Machine} {move : Move}

/-- What a move from the machine `m` to `n` does about the mouse and to those who wait. -/
structure Attends (m : Machine) (move : Move) (n : Machine) : Prop where
  kept : n.desk.Kept
  mouse : n.world.mouse = if move.isLoad then ⟨0, 0⟩ else move.mouse?.getD m.world.mouse
  waits : ∀ w ∈ m.waits, w ∈ n.waits ∨ w.task ∈ n.ready ∧ n.Ends move w
  nextTicket : m.world.nextTicket ≤ n.world.nextTicket
  tickets : ∀ ticket ∈ n.world.openTickets,
    ticket ∈ m.world.openTickets ∨ m.world.nextTicket ≤ ticket

theorem Since.attends (h : Since m n) (hk : n.desk.Kept) (hl : move.isLoad = false)
    (hm : move.mouse? = none) : m.Attends move n where
  kept := hk
  mouse := by
    rw [hl, hm]
    exact h.mouse
  waits w hw := (h.waits w hw).imp_right fun hs => ⟨hs.1, .stopped hs.2⟩
  nextTicket := h.nextTicket
  tickets := h.tickets

/-- The host does something that has nothing to do with the mouse and ends no wait. -/
theorem Attends.of_desk (hk : m.desk.Kept) (hd : n.desk = m.desk)
    (hn : n.world.mouse = m.world.mouse) (hl : move.isLoad = false) (hm : move.mouse? = none) :
    m.Attends move n := by
  obtain ⟨hopen, hnext, hwaits, -⟩ := Desk.mk.inj hd
  refine ⟨hd ▸ hk, ?_, fun w hw => .inl ?_, Nat.le_of_eq hnext.symm, fun ticket ht => .inl ?_⟩
  · rw [hl, hm]
    exact hn
  · rwa [hwaits]
  · rwa [hopen] at ht

theorem attends_spawnAll (hk : m.desk.Kept) (ls : List Listener) :
    (m.spawnAll ls).desk.Kept ∧ Since m (m.spawnAll ls) := by
  obtain ⟨count, hdesk⟩ := desk_spawnAll m ls
  have hlater : m.tree.Later (m.spawnAll ls).tree := by
    rw [tree_spawnAll]
    exact .spawns m.tree _
  refine ⟨?_, .of_enter hlater hdesk (congrArg World.mouse (world_spawnAll m ls))⟩
  rw [hdesk]
  exact hk.enter count

theorem answered_eq (hk : m.desk.Kept) :
    m.world.openTickets.filterMap m.waitFor? = m.waits.filter (·.ticket.isSome) := by
  have hfind : ∀ w ∈ m.waits, ∀ ticket, w.ticket = some ticket → m.waitFor? ticket = some w := by
    intro w hw ticket ht
    cases hf : m.waitFor? ticket with
    | none =>
      have hne := List.find?_eq_none.1 hf w hw
      simp [ht] at hne
    | some other =>
      have ho : other.ticket = some ticket := by simpa using List.find?_some hf
      rw [hk.eq_of_ticket (List.mem_of_find?_eq_some hf) hw ho ht]
  have hall : ∀ waits : List Wait, (∀ w ∈ waits, w ∈ m.waits) →
      (waits.filterMap (·.ticket)).filterMap m.waitFor? = waits.filter (·.ticket.isSome) := by
    intro waits hwaits
    induction waits with
    | nil => rfl
    | cons w rest ih =>
      have hrest := ih fun other ho => hwaits other (List.mem_cons_of_mem w ho)
      cases ht : w.ticket with
      | none => simp [ht, hrest]
      | some ticket => simp [ht, hrest, hfind w (hwaits w List.mem_cons_self) ticket ht]
  have htickets : m.world.openTickets = m.waits.filterMap (·.ticket) := hk.tickets
  rw [htickets]
  exact hall m.waits fun _ hw => hw

theorem desk_mousePosition (hk : m.desk.Kept) (p : Stage.Point Float) :
    (m.mousePosition p).desk = m.desk.clear.wake (m.waits.filter (·.ticket.isSome)) := by
  rw [mousePosition, desk_wake, answered_eq hk]
  rfl

theorem attends_mousePosition (hk : m.desk.Kept) (x y : Float) :
    m.Attends (.command (.mousePosition x y)) (m.mousePosition ⟨x, y⟩) := by
  have hdesk := desk_mousePosition hk ⟨x, y⟩
  obtain ⟨hopen, hnext, hwaits, hready, -, -⟩ := Desk.mk.inj hdesk
  refine ⟨?_, mouse_wake _ _, fun w hw => ?_, Nat.le_of_eq hnext.symm, fun ticket ht => ?_⟩
  · rw [hdesk]
    exact hk.clear_wake fun _ h => h
  · cases ht : w.ticket.isSome with
    | true =>
      refine .inr ⟨?_, .answered rfl ht⟩
      rw [hready]
      exact List.mem_append_right _ (List.mem_map_of_mem (List.mem_filter.2 ⟨hw, ht⟩))
    | false =>
      refine .inl ?_
      rw [hwaits.trans (Desk.waits_wake m.desk.clear _)]
      exact List.mem_filter.2 ⟨hw, by rw [ht]; rfl⟩
  · rw [hopen] at ht
    cases ht

theorem attends_reach (hk : m.desk.Kept) (time : Nat) : m.Attends (.reach time) (m.reach time) := by
  have hdesk : (m.reach time).desk = m.desk.wake (m.waits.filter (·.deadline ≤ time)) :=
    desk_wake { m with world := { m.world with clock := time } } _
  obtain ⟨hopen, hnext, hwaits, hready, -, -⟩ := Desk.mk.inj hdesk
  refine ⟨?_, mouse_wake _ _, fun w hw => ?_, Nat.le_of_eq hnext.symm, fun ticket ht => .inl ?_⟩
  · rw [hdesk]
    exact hk.wake _
  · by_cases hd : w.deadline ≤ time
    · refine .inr ⟨?_, .timedOut time rfl hd⟩
      rw [hready]
      exact List.mem_append_right _
        (List.mem_map_of_mem (List.mem_filter.2 ⟨hw, decide_eq_true hd⟩))
    · refine .inl ?_
      rw [hwaits.trans (Desk.waits_wake m.desk _)]
      exact List.mem_filter.2 ⟨hw, by simp [hd]⟩
  · rw [hopen] at ht
    exact (List.mem_filter.1 ht).1

theorem Sound.attends_load (h : m.Sound) (hk : m.desk.Kept) (specs : List EntitySpec)
    (program : Program) :
    m.Attends (.command (.loadProgram specs program)) (m.load specs program) :=
  have hhalt := h.since_halt
  ⟨h.kept_halt hk, rfl, fun w hw => (hhalt.waits w hw).imp_right fun hs => ⟨hs.1, .stopped hs.2⟩,
    hhalt.nextTicket, hhalt.tickets⟩

theorem Sound.attends_start (h : m.Sound) (hk : m.desk.Kept) :
    m.Attends (.command .start) m.start := by
  have hw := hk.waits
  obtain ⟨scopes, serial, ho⟩ := opened_shape m
  have hworld : m.opened.world.asked = m.halt.world.asked ∧
      m.opened.world.mouse = m.halt.world.mouse := by
    rw [ho, world_halt]
    exact ⟨rfl, rfl⟩
  have hdesk : m.opened.desk = m.halt.desk := by
    simp only [desk, World.openTickets_of_asked hworld.1, (Prod.mk.inj hworld.1).2]
    rw [ho]
    rfl
  have hopened : Since m.halt m.opened := by
    refine .of_desk ?_ hdesk hworld.2
    rw [ho]
    exact ⟨fun _ hs => hs, Nat.le_refl _, fun _ hl => .inl hl⟩
  have hapart : m.opened.Apart := by
    rw [Apart, tree_opened]
    exact h.tree.start.1.leaves_apart
  obtain ⟨hkept, hspawned⟩ := attends_spawnAll (hdesk ▸ h.kept_halt hk) m.starters
  rw [start_eq]
  have hsince := (h.since_halt.trans hopened h.halt.tree.leaves_apart hw).trans hspawned hapart hw
  exact hsince.attends hkept rfl rfl

theorem Sound.attends_handle (h : m.Sound) (hk : m.desk.Kept) (command : HostCommand) :
    m.Attends (.command command) (m.handle command) := by
  cases command with
  | loadProgram specs program => exact h.attends_load hk specs program
  | start => exact h.attends_start hk
  | stop => exact h.since_stopAll.attends (h.kept_halt hk) rfl rfl
  | mousePosition x y => exact attends_mousePosition hk x y
  | keyUp key => exact .of_desk hk rfl rfl rfl rfl
  | shutdown => exact .of_desk hk rfl rfl rfl rfl
  | keyDown key =>
    simp only [handle, keyDown]
    split
    · obtain ⟨hkept, hs⟩ := attends_spawnAll
        (m := { m with world := { m.world with keys := m.world.keys.insert (Name.key key) } }) hk
        (m.world.switchboard.keyListeners (Name.key key))
      have hsince : Since m _ := ⟨hs.later, hs.ready, hs.waits, hs.nextTicket, hs.tickets, hs.mouse⟩
      exact hsince.attends hkept rfl rfl
    · exact .of_desk hk rfl rfl rfl rfl
  | clickEntity id =>
    simp only [handle, click]
    split
    · obtain ⟨hkept, hs⟩ := attends_spawnAll hk (m.world.switchboard.clickListeners id)
      exact hs.attends hkept rfl rfl
    · exact .of_desk hk rfl rfl rfl rfl
  | updateCode id program =>
    simp only [handle, updateCode]
    repeat' split
    all_goals exact .of_desk hk rfl rfl rfl rfl

theorem Sound.attends_move (h : m.Sound) (hk : m.desk.Kept) (move : Move) :
    m.Attends move (m.move move) := by
  cases move with
  | command command => exact h.attends_handle hk command
  | broadcast name sender =>
    obtain ⟨count, hdesk⟩ := desk_broadcast m name sender
    have he : Effect ⟨0, sender⟩ m (m.broadcast name sender) := .broadcast m name
    have hkept : (m.broadcast name sender).desk.Kept := hdesk ▸ hk.enter count
    exact (Since.of_enter he.later hdesk he.edited.mouse_eq).attends hkept rfl rfl
  | close => exact h.since_halt.attends (h.kept_halt hk) rfl rfl
  | poll id =>
    simp only [Machine.move]
    split
    next hid =>
      obtain ⟨hkept, hs⟩ := (h.dequeue id).attended_poll (hk.dequeue hid)
      refine ⟨hkept, hs.mouse, fun w hw => ?_, hs.nextTicket, hs.tickets⟩
      exact (hs.waits w hw).imp_right fun hs => ⟨hs.1, .stopped hs.2⟩
    · exact .of_desk hk rfl rfl rfl rfl
  | resume => exact ⟨hk.resume, rfl, fun _ hw => .inl hw, Nat.le_refl _, fun _ ht => .inl ht⟩
  | reach time => exact attends_reach hk time

/-! ### Histories -/

theorem Reachable.kept (h : m.Reachable) : m.desk.Kept := by
  refine h.sound_invariant (P := fun n => n.desk.Kept) (fun options => ?_)
    fun n move hsound hn => ?_
  · exact ⟨rfl, .nil, nofun, .nil, nofun⟩
  · exact (hsound.attends_move hn move).kept

/-- Where the host said last that the mouse is, since the last load. -/
def lastMouse (moves : List Move) : Stage.Point Float :=
  ((moves.reverse.takeWhile (!·.isLoad)).findSome? Move.mouse?).getD ⟨0, 0⟩

theorem lastMouse_concat (moves : List Move) (move : Move) :
    lastMouse (moves ++ [move]) =
      if move.isLoad then ⟨0, 0⟩ else move.mouse?.getD (lastMouse moves) := by
  rw [lastMouse, List.reverse_concat]
  cases hload : move.isLoad <;> simp [hload, lastMouse, List.findSome?_cons]
  cases move.mouse? <;> rfl

theorem mouse_after (options : Options) (moves : List Move) :
    ((Machine.new options).after moves).world.mouse = lastMouse moves := by
  have hmore : ∀ before, ((Machine.new options).after before).world.mouse = lastMouse before →
      ((Machine.new options).after (before ++ moves)).world.mouse =
        lastMouse (before ++ moves) := by
    induction moves with
    | nil =>
      intro before h
      rwa [List.append_nil]
    | cons move rest ih =>
      intro before h
      have hreachable : ((Machine.new options).after before).Reachable := ⟨options, before, rfl⟩
      rw [List.append_cons]
      refine ih (before ++ [move]) ?_
      rw [after_append, lastMouse_concat, ← h]
      exact (hreachable.sound.attends_move hreachable.kept move).mouse
  exact hmore [] rfl

/-- Requests that are open later than some time were open then, or were made since. -/
theorem Reachable.tickets_after (h : m.Reachable) {first : Nat} (hnext : first ≤ m.world.nextTicket)
    (hopen : ∀ ticket ∈ m.world.openTickets, first ≤ ticket) (moves : List Move) :
    ∀ ticket ∈ (m.after moves).world.openTickets, first ≤ ticket := by
  have hafter : (m.after moves).Reachable ∧ first ≤ (m.after moves).world.nextTicket ∧
      ∀ ticket ∈ (m.after moves).world.openTickets, first ≤ ticket := by
    refine after_invariant (P := fun n => n.Reachable ∧ first ≤ n.world.nextTicket ∧
      ∀ ticket ∈ n.world.openTickets, first ≤ ticket) ?_ ⟨h, hnext, hopen⟩
    rintro n move - ⟨hn, hle, hall⟩
    have hmove := hn.sound.attends_move hn.kept move
    refine ⟨hn.move move, Nat.le_trans hle hmove.nextTicket, fun ticket ht => ?_⟩
    rcases hmove.tickets ticket ht with ht | ht
    · exact hall ticket ht
    · exact Nat.le_trans hle ht
  exact hafter.2.2

/-! ### The theorem -/

/-- A response wakes all tasks that wait for one, and no others. -/
structure Answers (m : Machine) (p : Stage.Point Float) (n : Machine) : Prop where
  mouse : n.world.mouse = p
  ready : n.ready = m.ready ++ (m.waits.filter (·.ticket.isSome)).map (·.task)
  waits : n.waits = m.waits.filter (!·.ticket.isSome)
  none_open : n.world.openTickets = []

theorem answers_mousePosition (hk : m.desk.Kept) (p : Stage.Point Float) :
    m.Answers p (m.mousePosition p) := by
  obtain ⟨hopen, -, hwaits, hready, -, -⟩ := Desk.mk.inj (desk_mousePosition hk p)
  exact ⟨mouse_wake _ _, hready, hwaits.trans (Desk.waits_wake m.desk.clear _), hopen⟩

/-- Whoever asks for the mouse waits with a new ticket, and all that were waiting wait on. -/
structure Registers (m : Machine) (who : Self) : Prop where
  pauses : m.askMouse who = .paused (m.asking who) (.mouse m.world.nextTicket) []
  tickets : (m.asking who).world.openTickets = m.world.openTickets ++ [m.world.nextTicket]
  waits : ∀ frames, ((m.asking who).suspend who.task (.mouse m.world.nextTicket) frames).waits =
    m.waits ++
      [⟨who.task, m.world.clock + m.options.mouseTimeout.millisUp, some m.world.nextTicket⟩]

theorem registers (m : Machine) (who : Self) (h : m.options.mouseTimeout ≠ .zero) :
    m.Registers who where
  pauses := if_neg h
  tickets := World.openTickets_requestMouse m.world
  waits _ := rfl

/-- A request that is open after a response was made after it. -/
theorem Reachable.tickets_after_response (h : m.Reachable) (x y : Float) (later : List Move) :
    ∀ ticket ∈ (m.after (.command (.mousePosition x y) :: later)).world.openTickets,
      m.world.nextTicket ≤ ticket := by
  have hanswers : m.Answers ⟨x, y⟩ (m.move (.command (.mousePosition x y))) :=
    answers_mousePosition h.kept ⟨x, y⟩
  refine (h.move (.command (.mousePosition x y))).tickets_after ?_ (fun ticket ht => ?_) later
  · exact (h.sound.attends_move h.kept (.command (.mousePosition x y))).nextTicket
  · rw [hanswers.none_open] at ht
    cases ht

/-- After any moves, and at each statement of a turn, the mouse is where the host said last since
the load, or at the origin. The requests that are open are those that somebody waits for, and nobody
is in two queues. A response wakes everybody who waits for one. A wait ends with a response, in time
or with a stop, and its task is ready then; nothing else ends it. Whoever waits for the mouse has
asked since the last response, and who asks leaves the others waiting. -/
theorem mouse_requests_are_answered (options : Options) (moves : List Move) :
    let m := (Machine.new options).after moves
    m.world.mouse = lastMouse moves ∧
      (∀ move, ∀ k ∈ m.moveTrace move, k.machine.world.mouse = lastMouse moves) ∧
      m.desk.Kept ∧
      (∀ x y, m.Answers ⟨x, y⟩ (m.move (.command (.mousePosition x y)))) ∧
      (∀ move, ∀ w ∈ m.waits, w ∈ (m.move move).waits ∨
        w.task ∈ (m.move move).ready ∧ (m.move move).Ends move w) ∧
      (∀ before x y later, moves = before ++ .command (.mousePosition x y) :: later →
        ∀ w ∈ m.waits, ∀ ticket, w.ticket = some ticket →
          ((Machine.new options).after before).world.nextTicket ≤ ticket) ∧
      ∀ (n : Machine) (who : Self), exec who n (.act .syncMouse) = n.counted.askMouse who ∧
        (n.options.mouseTimeout ≠ .zero → n.Registers who) := by
  intro m
  have hreachable : m.Reachable := ⟨options, moves, rfl⟩
  have hkept := hreachable.kept
  have hmouse : m.world.mouse = lastMouse moves := mouse_after options moves
  refine ⟨hmouse, fun move k hk => ?_, hkept, fun x y => answers_mousePosition hkept ⟨x, y⟩,
    fun move => (hreachable.sound.attends_move hkept move).waits, ?_,
    fun n who => ⟨rfl, n.registers who⟩⟩
  · obtain ⟨id, t, ks, -, -, -, hpath⟩ := turn_of_mem_moveTrace hk
    exact hpath.edited.mouse_eq.trans hmouse
  · intro before x y later hmoves w hw ticket ht
    have hbefore : ((Machine.new options).after before).Reachable := ⟨options, before, rfl⟩
    have hopen : ticket ∈ m.world.openTickets := hkept.mem_openTickets hw ht
    refine hbefore.tickets_after_response x y later ticket ?_
    rwa [← after_append, ← hmoves]

namespace Sample

def followers : EntityProgram :=
  { EntityProgram.empty with
    onStart := some ⟨"a", [.act .syncMouse, .act .vanish, .act .syncMouse]⟩ }

-- Both have asked and been answered. The dog has had its turn since, and has asked again.
def chase : List Move :=
  [.command (.loadProgram [cat, { cat with name := "dog" }] ⟨[followers, followers]⟩),
    .command .start, .poll 1, .poll 2, .command (.mousePosition 3 4), .poll 2]

end Sample

theorem mouse_requests_are_answered_chase :
    let m := (Machine.new .standard).after Sample.chase
    let w : Wait := ⟨2, 50, some 2⟩
    let past := m.move (.reach 60)
    m.ready = [1] ∧ m.waits = [w] ∧ m.world.mouse = ⟨3, 4⟩ ∧
      (∃ k ∈ m.moveTrace (.poll 1), k.machine.world.mouse = ⟨3, 4⟩) ∧ m.desk.Kept ∧
      (m.move (.command (.mousePosition 5 6))).ready = [1, 2] ∧
      past.waits = [] ∧ w.task ∈ past.ready ∧ past.Ends (.reach 60) w ∧
      ((Machine.new .standard).after (Sample.chase.take 4)).world.nextTicket ≤ 2 ∧
      m.Registers ⟨1, 0⟩ := by
  intro m w past
  obtain ⟨hmouse, htrace, hkept, hanswers, hwaits, hsince, hasks⟩ :=
    mouse_requests_are_answered .standard Sample.chase
  have hw : m.waits = [w] := by decide +kernel
  have hmem : w ∈ m.waits := by simp [hw]
  have hgone : past.waits = [] := by decide +kernel
  refine ⟨by decide +kernel, hw, hmouse, ?_, hkept, ?_, hgone, ?_⟩
  · have hk : 0 < (m.moveTrace (.poll 1)).length := by decide +kernel
    exact ⟨_, List.get_mem _ ⟨0, hk⟩, htrace (.poll 1) _ (List.get_mem _ _)⟩
  · rw [(hanswers 5 6).ready]
    decide +kernel
  · have hends : w.task ∈ past.ready ∧ past.Ends (.reach 60) w := by
      have hnot : w ∉ past.waits := by simp [hgone]
      exact (hwaits (.reach 60) w hmem).resolve_left hnot
    refine ⟨hends.1, hends.2, ?_, (hasks m ⟨1, 0⟩).2 (by decide +kernel)⟩
    exact hsince _ 3 4 [.poll 2] rfl w hmem 2 rfl

end Machine

end SpriteStage
