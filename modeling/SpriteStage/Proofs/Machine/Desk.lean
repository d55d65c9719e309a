import SpriteStage.Machine.Task

/-!
The desk at which tasks queue for their turns and for the mouse.

This is all that the scheduler keeps of who waits for what. Its operations are stated here by
themselves, with the invariant that they keep (`Desk.Kept`): the requests that are open are those
that somebody waits for, in the order in which they were made, and nobody is in two queues.
-/

namespace SpriteStage

structure Desk where
  openTickets : List Nat
  nextTicket : Nat
  waits : List Wait
  ready : List TaskId
  yielded : List TaskId
  nextTask : TaskId

namespace Desk

/-! ### Operations -/

def wake (d : Desk) (ended : List Wait) : Desk :=
  { d with
    openTickets := d.openTickets.filter (!(ended.filterMap (·.ticket)).contains ·)
    waits := d.waits.filter (!ended.contains ·)
    ready := d.ready ++ ended.map (·.task) }

/-- All requests are answered or given up. -/
def clear (d : Desk) : Desk :=
  { d with openTickets := [] }

def enter (d : Desk) (count : Nat) : Desk :=
  { d with
    ready := d.ready ++ List.range' d.nextTask count
    nextTask := d.nextTask + count }

def ask (d : Desk) : Desk :=
  { d with
    openTickets := d.openTickets ++ [d.nextTicket]
    nextTicket := d.nextTicket + 1 }

def close (d : Desk) (ticket : Nat) : Desk :=
  { d with openTickets := d.openTickets.filter (· != ticket) }

def wait (d : Desk) (wait : Wait) : Desk :=
  { d with waits := d.waits ++ [wait] }

def yield (d : Desk) (id : TaskId) : Desk :=
  { d with yielded := d.yielded ++ [id] }

def resume (d : Desk) : Desk :=
  { d with ready := d.ready ++ d.yielded.reverse, yielded := [] }

def dequeue (d : Desk) (id : TaskId) : Desk :=
  { d with ready := d.ready.erase id }

/-! ### The invariant -/

/-- The tasks in the queues. -/
def queue (d : Desk) : List TaskId :=
  d.ready ++ d.yielded ++ d.waits.map (·.task)

structure Kept (d : Desk) : Prop where
  /-- Open are the requests that somebody waits for. -/
  tickets : d.openTickets = d.waits.filterMap (·.ticket)
  ascending : d.openTickets.Pairwise (· < ·)
  issued : ∀ ticket ∈ d.openTickets, ticket < d.nextTicket
  /-- Nobody is in two queues, or in one of them twice. -/
  once : d.queue.Nodup
  known : ∀ id ∈ d.queue, id < d.nextTask

theorem enter_zero (d : Desk) : d.enter 0 = d := by
  simp [enter]

theorem enter_enter (d : Desk) (count more : Nat) :
    (d.enter count).enter more = d.enter (count + more) := by
  simp [enter, List.range'_append_1, Nat.add_assoc]

variable {d d' : Desk}

theorem eq_of_pairwise_ticket {waits : List Wait} (h : (waits.filterMap (·.ticket)).Pairwise (· < ·))
    {w w' : Wait} {ticket : Nat} (hw : w ∈ waits) (hw' : w' ∈ waits) (ht : w.ticket = some ticket)
    (ht' : w'.ticket = some ticket) : w = w' := by
  induction waits with
  | nil => cases hw
  | cons first rest ih =>
    have hrest : (rest.filterMap (·.ticket)).Pairwise (· < ·) :=
      h.sublist ((List.sublist_cons_self first rest).filterMap _)
    -- The ticket of the first wait comes before all others.
    have hfirst : ∀ other ∈ rest, first.ticket = some ticket → other.ticket ≠ some ticket := by
      intro other hother hf ho
      rw [List.filterMap_cons_some hf] at h
      have hlt := (List.pairwise_cons.1 h).1 ticket (List.mem_filterMap.2 ⟨other, hother, ho⟩)
      exact Nat.lt_irrefl ticket hlt
    rcases List.mem_cons.1 hw with rfl | hm <;> rcases List.mem_cons.1 hw' with rfl | hm'
    · rfl
    · exact absurd ht' (hfirst w' hm' ht)
    · exact absurd ht (hfirst w hm ht')
    · exact ih hrest hm hm'

theorem Kept.eq_of_ticket (h : d.Kept) {w w' : Wait} {ticket : Nat} (hw : w ∈ d.waits)
    (hw' : w' ∈ d.waits) (ht : w.ticket = some ticket) (ht' : w'.ticket = some ticket) : w = w' :=
  eq_of_pairwise_ticket (h.tickets ▸ h.ascending) hw hw' ht ht'

theorem Kept.mem_openTickets (h : d.Kept) {w : Wait} {ticket : Nat} (hw : w ∈ d.waits)
    (ht : w.ticket = some ticket) : ticket ∈ d.openTickets := by
  rw [h.tickets]
  exact List.mem_filterMap.2 ⟨w, hw, ht⟩

theorem waits_wake (d : Desk) (p : Wait → Bool) :
    (d.wake (d.waits.filter p)).waits = d.waits.filter (!p ·) := by
  refine List.filter_congr fun w hw => ?_
  cases hp : p w <;> simp [hw, hp]

theorem queue_wake (d : Desk) (p : Wait → Bool) :
    (d.wake (d.waits.filter p)).queue.Perm d.queue := by
  have hsplit : (d.waits.filter p ++ d.waits.filter (!p ·)).Perm d.waits :=
    List.filter_append_perm p d.waits
  have htasks := hsplit.map (·.task)
  rw [List.map_append] at htasks
  have hcomm : (d.ready ++ (d.waits.filter p).map (·.task) ++ d.yielded).Perm
      (d.ready ++ d.yielded ++ (d.waits.filter p).map (·.task)) := by
    rw [List.append_assoc, List.append_assoc]
    exact List.perm_append_comm.append_left d.ready
  rw [queue, queue, waits_wake]
  refine (hcomm.append_right _).trans ?_
  rw [List.append_assoc]
  exact htasks.append_left _

/-- A wait ends if and only if its ticket is among those of the waits that end. -/
theorem contains_ticket (h : d.Kept) (p : Wait → Bool) {w : Wait} {ticket : Nat} (hw : w ∈ d.waits)
    (ht : w.ticket = some ticket) :
    ((d.waits.filter p).filterMap (·.ticket)).contains ticket = p w := by
  rw [Bool.eq_iff_iff, List.contains_iff_mem, List.mem_filterMap]
  constructor
  · rintro ⟨other, hother, ho⟩
    obtain ⟨hother, hp⟩ := List.mem_filter.1 hother
    rw [h.eq_of_ticket hw hother ht ho]
    exact hp
  · exact fun hp => ⟨w, List.mem_filter.2 ⟨hw, hp⟩, ht⟩

theorem tickets_wake (h : d.Kept) (p : Wait → Bool) :
    (d.wake (d.waits.filter p)).openTickets =
      (d.wake (d.waits.filter p)).waits.filterMap (·.ticket) := by
  have hleft : ∀ waits : List Wait, (∀ w ∈ waits, w ∈ d.waits) →
      (waits.filterMap (·.ticket)).filter
          (!((d.waits.filter p).filterMap (·.ticket)).contains ·) =
        (waits.filter (!p ·)).filterMap (·.ticket) := by
    intro waits hwaits
    induction waits with
    | nil => rfl
    | cons w rest ih =>
      have hrest := ih fun other ho => hwaits other (List.mem_cons_of_mem w ho)
      cases ht : w.ticket with
      | none => cases hp : p w <;> simp only [List.filterMap_cons, List.filter_cons, ht, hp, hrest,
          Bool.not_true, Bool.not_false, Bool.false_eq_true, if_true, if_false]
      | some ticket =>
        have hmem := contains_ticket h p (hwaits w List.mem_cons_self) ht
        cases hp : p w <;> simp only [List.filterMap_cons, List.filter_cons, ht, hp, hmem, hrest,
          Bool.not_true, Bool.not_false, Bool.false_eq_true, if_true, if_false]
  rw [waits_wake, ← hleft d.waits fun _ hw => hw, ← h.tickets]
  rfl

namespace Kept

theorem waits (h : d.Kept) : ∀ w ∈ d.waits, w.task < d.nextTask :=
  fun w hw => h.known w.task (List.mem_append_right _ (List.mem_map_of_mem hw))

theorem of_perm (h : d.Kept) (hq : d'.queue.Perm d.queue) (hn : d'.nextTask = d.nextTask)
    (ht : d'.openTickets = d'.waits.filterMap (·.ticket)) (ha : d'.openTickets.Pairwise (· < ·))
    (hi : ∀ ticket ∈ d'.openTickets, ticket < d'.nextTicket) : d'.Kept where
  tickets := ht
  ascending := ha
  issued := hi
  once := hq.nodup_iff.2 h.once
  known id hid := by
    rw [hn]
    exact h.known id (hq.subset hid)

/-- Some waits end, by a stop or because their time has come. -/
theorem wake (h : d.Kept) (p : Wait → Bool) : (d.wake (d.waits.filter p)).Kept :=
  h.of_perm (queue_wake d p) rfl (tickets_wake h p) (h.ascending.filter _)
    fun ticket ht => h.issued ticket (List.mem_filter.1 ht).1

/-- All requests end at once, and so do the waits for them. -/
theorem clear_wake (h : d.Kept) {p : Wait → Bool} (hp : ∀ w, w.ticket.isSome = true → p w = true) :
    (d.clear.wake (d.waits.filter p)).Kept := by
  refine h.of_perm (queue_wake d p) rfl ?_ .nil nofun
  have hwaits : (d.clear.wake (d.waits.filter p)).waits = d.waits.filter (!p ·) := waits_wake d p
  rw [hwaits, eq_comm]
  refine List.filterMap_eq_nil_iff.2 fun w hw => ?_
  have hnot := (List.mem_filter.1 hw).2
  cases ht : w.ticket with
  | none => rfl
  | some ticket =>
    rw [hp w (by rw [ht]; rfl)] at hnot
    cases hnot

theorem enter (h : d.Kept) (count : Nat) : (d.enter count).Kept := by
  have hq : (d.enter count).queue.Perm (d.queue ++ List.range' d.nextTask count) := by
    simp only [queue, Desk.enter, List.append_assoc]
    refine List.Perm.append_left d.ready ?_
    exact List.perm_append_comm.trans (.of_eq (List.append_assoc ..))
  refine ⟨h.tickets, h.ascending, h.issued, ?_, fun id hid => ?_⟩
  · refine hq.nodup_iff.2 (List.nodup_append.2 ⟨h.once, List.nodup_range', fun a ha b hb he => ?_⟩)
    have hlt := h.known a ha
    rw [he] at hlt
    exact Nat.not_lt.2 (List.mem_range'_1.1 hb).1 hlt
  · rcases List.mem_append.1 (hq.subset hid) with hid | hid
    · exact Nat.lt_of_lt_of_le (h.known id hid) (Nat.le_add_right _ _)
    · exact (List.mem_range'_1.1 hid).2

theorem resume (h : d.Kept) : d.resume.Kept := by
  refine h.of_perm ?_ rfl h.tickets h.ascending h.issued
  simp only [queue, Desk.resume, List.append_nil]
  exact (d.yielded.reverse_perm.append_left d.ready).append_right _

end Kept

/-! ### Turns -/

/-- The task has its turn: it is in no queue. -/
structure Away (d : Desk) (id : TaskId) : Prop where
  kept : d.Kept
  away : id ∉ d.queue
  known : id < d.nextTask

theorem Kept.dequeue (h : d.Kept) {id : TaskId} (hid : id ∈ d.ready) : (d.dequeue id).Away id := by
  have hq : d.queue.Perm (id :: (d.dequeue id).queue) := by
    simp only [queue, Desk.dequeue, List.append_assoc]
    exact (List.perm_cons_erase hid).append_right _
  have hnodup := List.nodup_cons.1 (hq.nodup_iff.1 h.once)
  have hknown : ∀ other ∈ (d.dequeue id).queue, other < d.nextTask :=
    fun other ho => h.known other (hq.symm.subset (List.mem_cons_of_mem id ho))
  refine ⟨⟨h.tickets, h.ascending, h.issued, hnodup.2, hknown⟩, hnodup.1, ?_⟩
  exact h.known id (hq.symm.subset List.mem_cons_self)

namespace Away

variable {id : TaskId}

theorem wake (h : d.Away id) (p : Wait → Bool) : (d.wake (d.waits.filter p)).Away id :=
  ⟨h.kept.wake p, fun hid => h.away ((queue_wake d p).subset hid), h.known⟩

theorem enter (h : d.Away id) (count : Nat) : (d.enter count).Away id := by
  refine ⟨h.kept.enter count, fun hid => ?_, Nat.lt_of_lt_of_le h.known (Nat.le_add_right _ _)⟩
  simp only [queue, Desk.enter, List.mem_append, List.mem_range'_1] at hid
  have haway := h.away
  simp only [queue, List.mem_append] at haway
  rcases hid with ((hid | hid) | hid) | hid
  · exact haway (.inl (.inl hid))
  · exact Nat.not_lt.2 hid.1 h.known
  · exact haway (.inl (.inr hid))
  · exact haway (.inr hid)

/-- A request that is closed at once leaves no trace but its number. -/
theorem ask_close (h : d.Away id) : (d.ask.close d.nextTicket).Away id := by
  have hopen : (d.ask.close d.nextTicket).openTickets = d.openTickets := by
    have hne : ∀ ticket ∈ d.openTickets, (ticket != d.nextTicket) = true :=
      fun ticket ht => bne_iff_ne.2 (Nat.ne_of_lt (h.kept.issued ticket ht))
    simp only [close, ask, List.filter_append, List.filter_eq_self.2 hne]
    simp
  refine ⟨⟨?_, ?_, ?_, h.kept.once, h.kept.known⟩, h.away, h.known⟩
  · rw [hopen]
    exact h.kept.tickets
  · rw [hopen]
    exact h.kept.ascending
  · rw [hopen]
    exact fun ticket ht => Nat.lt_succ_of_lt (h.kept.issued ticket ht)

theorem once_concat (h : d.Away id) (deadline : Nat) (ticket : Option Nat) :
    (d.wait ⟨id, deadline, ticket⟩).queue.Nodup ∧
      ∀ other ∈ (d.wait ⟨id, deadline, ticket⟩).queue, other < d.nextTask := by
  have hq : (d.wait ⟨id, deadline, ticket⟩).queue = d.queue ++ [id] := by
    simp [queue, Desk.wait]
  rw [hq]
  refine ⟨?_, fun other ho => ?_⟩
  · refine List.nodup_append.2 ⟨h.kept.once, by simp, fun a ha b hb he => ?_⟩
    cases List.mem_singleton.1 hb
    exact h.away (he ▸ ha)
  · rcases List.mem_append.1 ho with ho | ho
    · exact h.kept.known other ho
    · cases List.mem_singleton.1 ho
      exact h.known

theorem sleep (h : d.Away id) (deadline : Nat) : (d.wait ⟨id, deadline, none⟩).Kept := by
  obtain ⟨honce, hknown⟩ := h.once_concat deadline none
  refine ⟨?_, h.kept.ascending, h.kept.issued, honce, hknown⟩
  have htickets := h.kept.tickets
  simpa [Desk.wait] using htickets

/-- A task that asks for the mouse waits for the ticket that it has got. -/
theorem ask_wait (h : d.Away id) (deadline : Nat) :
    (d.ask.wait ⟨id, deadline, some d.nextTicket⟩).Kept := by
  obtain ⟨honce, hknown⟩ := h.once_concat deadline (some d.nextTicket)
  refine ⟨?_, ?_, fun ticket ht => ?_, honce, hknown⟩
  · have htickets := h.kept.tickets
    simp [Desk.wait, ask, htickets]
  · refine List.pairwise_append.2 ⟨h.kept.ascending, List.pairwise_singleton _ _, ?_⟩
    intro a ha b hb
    cases List.mem_singleton.1 hb
    exact h.kept.issued a ha
  · rcases List.mem_append.1 ht with ht | ht
    · exact Nat.lt_succ_of_lt (h.kept.issued ticket ht)
    · cases List.mem_singleton.1 ht
      exact Nat.lt_succ_self _

theorem yield (h : d.Away id) : (d.yield id).Kept := by
  have hq : (d.yield id).queue.Perm (id :: d.queue) := by
    simp only [queue, Desk.yield, List.append_assoc, List.singleton_append]
    rw [← List.append_assoc, ← List.append_assoc]
    exact List.perm_middle
  refine ⟨h.kept.tickets, h.kept.ascending, h.kept.issued, ?_, fun other ho => ?_⟩
  · exact hq.nodup_iff.2 (List.nodup_cons.2 ⟨h.away, h.kept.once⟩)
  · rcases List.mem_cons.1 (hq.subset ho) with rfl | ho
    · exact h.known
    · exact h.kept.known other ho

end Away

end Desk

end SpriteStage
