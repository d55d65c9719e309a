import SpriteStage.Proofs.Machine.Atomic
import SpriteStage.Proofs.Machine.Ledger
import SpriteStage.Proofs.Machine.MouseRequests
import SpriteStage.Proofs.Machine.Turns

/-!
How a task pauses, and how it waits for its next turn.

A statement that pauses or ends its task is the last one of the turn (`decisive_runFrames`), and a
task that rests on a glide in the end has begun it in this turn or rested on it before. Until its
next turn the task stays in a queue with the frames that are left, whatever else happens
(`Due.move`), unless it is stopped.
-/

namespace SpriteStage

/-! ### Frames that glide -/

def Frame.isGlide : Frame → Bool
  | .glide .. => true
  | _ => false

/-- None of the frames goes on with a glide. -/
def Glideless (frames : List Frame) : Prop :=
  ∀ f ∈ frames, f.isGlide = false

theorem Glideless.isGlide_ne {frames : List Frame} {f : Frame} (h : Glideless frames)
    (hf : f ∈ frames) : f.isGlide ≠ true :=
  ne_true_of_eq_false (h f hf)

theorem glideless_nil : Glideless [] :=
  nofun

theorem glideless_singleton {f : Frame} (h : f.isGlide = false) : Glideless [f] := by
  rintro _ (_ | ⟨_, ⟨⟩⟩)
  exact h

theorem Glideless.append {frames later : List Frame} (h : Glideless frames) (hl : Glideless later) :
    Glideless (frames ++ later) :=
  fun f hf => (List.mem_append.1 hf).elim (h f) (hl f)

theorem Glideless.tail_append {frames later : List Frame} (h : Glideless frames.tail)
    (hl : Glideless later) : Glideless (frames ++ later).tail := by
  cases frames with
  | nil => exact fun f hf => hl f (List.mem_of_mem_tail hf)
  | cons f rest => exact h.append hl

namespace Machine

mutual

/-- Only the innermost frame can be a glide. -/
theorem Within.glideless_tail :
    ∀ {k : Nat} {s : Stmt} {marks : List Mark}, Within k s marks →
      Glideless (marks.map (·.frame)).tail
  | _, _, _, .act .. => glideless_nil
  | _, _, _, .glide .. | _, _, _, .unsay .. | _, _, _, .check .. | _, _, _, .look ..
  | _, _, _, .again .. => glideless_nil
  | _, _, _, .pass _ _ hrest => by
    rw [List.map_append]
    exact hrest.glideless_tail.tail_append (glideless_singleton rfl)
  | _, _, _, .thenBody _ _ hrest => hrest.glideless_tail
  | _, _, _, .elseBody _ hrest => hrest.glideless_tail
  | _, _, _, .spent h => by
    rw [List.map_append]
    exact h.glideless_tail.tail_append (glideless_singleton rfl)

theorem WithinBody.glideless_tail :
    ∀ {k : Nat} {body : List Stmt} {marks : List Mark}, WithinBody k body marks →
      Glideless (marks.map (·.frame)).tail
  | _, _, _, .start .. => glideless_nil
  | _, _, _, .here _ h => by
    rw [List.map_append]
    exact h.glideless_tail.tail_append (glideless_singleton rfl)
  | _, _, _, .there _ h => h.glideless_tail

end

theorem Reachable.glideless_tail {m : Machine} (hm : m.Reachable) {t : Task} (ht : t ∈ m.tasks) :
    Glideless t.frames.tail := by
  obtain ⟨body, marks, hrests⟩ := hm.rests t ht
  rw [← hrests.frames]
  exact hrests.within.glideless_tail

end Machine

/-! ### The last statement of a turn -/

/-- The step decides what comes of the whole that it is a part of, unless the whole goes on after
it. What is left behind it is no glide. -/
def Step.Decides (whole : Step) : Step → Prop
  | .done _ => True
  | .paused m pause frames =>
    ∃ later, Glideless later ∧ whole = .paused m pause (frames ++ later)
  | .ended m ending => whole = .ended m ending

theorem Step.decides_refl (s : Step) : s.Decides s := by
  cases s with
  | done m => trivial
  | paused m pause frames => exact ⟨[], glideless_nil, by rw [List.append_nil]⟩
  | ended m ending => rfl

theorem Step.Decides.andThen {whole s : Step} (h : whole.Decides s) (k : Machine → Step)
    {later : List Frame} (hl : Glideless later) : (whole.andThen k later).Decides s := by
  cases s with
  | done m => trivial
  | paused m pause frames =>
    obtain ⟨rest, hrest, rfl⟩ := h
    exact ⟨rest ++ later, hrest.append hl, by rw [← List.append_assoc]; rfl⟩
  | ended m ending =>
    cases (show whole = _ from h)
    rfl

theorem Ledger.Step.mem_ids {b b' : Ledger} {turn : Option TaskId} {id : TaskId}
    (h : b.Step turn b') (hne : turn ≠ some id) (hid : id ∈ b.ids) : id ∈ b'.ids := by
  cases h with
  | idle count =>
    rw [Ledger.ids_enter]
    exact List.mem_append_left _ hid
  | rests _ count =>
    rw [Ledger.ids_enter, Ledger.ids_mark]
    exact List.mem_append_left _ hid
  | leaves _ ending count =>
    rw [Ledger.ids_enter, Ledger.ids_close]
    refine List.mem_append_left _ (List.mem_filter.2 ⟨hid, ?_⟩)
    have hother : id ≠ _ := fun he => hne (he ▸ rfl)
    simpa using hother

/-- The statement of the moment is a glide, and the frame goes on with a glide that began then. -/
def Moment.Begins (k : Moment) (f : Frame) : Prop :=
  ∃ secs x y way time,
    k.stmt = .act (.glide secs x y) ∧ f = .glide way k.machine.world.clock time

namespace Machine

/-- The frames that a step leaves hold no glides but the old ones and those that the moments
begin. -/
def GlidesFrom (old : List Frame) (ms : List Moment) (s : Step) : Prop :=
  ∀ n pause frames, s = .paused n pause frames → ∀ f ∈ frames, f.isGlide = true →
    f ∈ old ∨ ∃ k ∈ ms, k.Begins f

/-- How the statements that are executed on the way account for what the whole comes to. -/
structure Decisive (who : Self) (old : List Frame) (ms : List Moment) (whole : Step) : Prop where
  decides : ∀ k ∈ ms, whole.Decides (exec who k.machine k.stmt)
  glides : GlidesFrom old ms whole

section Decisive

variable {self : Self} {old : List Frame} {m : Machine} {ms : List Moment} {s : Step}

theorem GlidesFrom.andThen {k : Machine → Step} {kt : Machine → List Moment} {later : List Frame}
    (hs : GlidesFrom old ms s) (hk : ∀ n, GlidesFrom old (kt n) (k n)) (hl : Glideless later) :
    GlidesFrom old (ms ++ s.thenTrace kt) (s.andThen k later) := by
  intro n pause frames hp f hf hglide
  cases s with
  | done l =>
    refine (hk l n pause frames hp f hf hglide).imp_right ?_
    rintro ⟨moment, hmoment, hbegins⟩
    exact ⟨moment, List.mem_append_right _ hmoment, hbegins⟩
  | ended l ending => cases hp
  | paused l pause' frames' =>
    cases hp
    rcases List.mem_append.1 hf with hf | hf
    · refine (hs _ _ _ rfl f hf hglide).imp_right ?_
      rintro ⟨moment, hmoment, hbegins⟩
      exact ⟨moment, List.mem_append_left _ hmoment, hbegins⟩
    · exact absurd hglide (hl.isGlide_ne hf)

theorem decisive_done (self : Self) (old : List Frame) (m : Machine) :
    Decisive self old [] (.done m) :=
  ⟨nofun, nofun⟩

theorem decisive_paused {frames : List Frame} (h : Glideless frames) (self : Self)
    (old : List Frame) (m : Machine) (pause : Pause) :
    Decisive self old [] (.paused m pause frames) := by
  refine ⟨nofun, ?_⟩
  rintro _ _ _ ⟨⟩ f hf hglide
  exact absurd hglide (h.isGlide_ne hf)

theorem decisive_cons {t : Stmt} (h : Decisive self old ms (exec self m t)) :
    Decisive self old (⟨m, t⟩ :: ms) (exec self m t) := by
  refine ⟨fun k hk => ?_, fun n pause frames hs f hf hglide => ?_⟩
  · rcases List.mem_cons.1 hk with rfl | hk
    · exact (exec self m t).decides_refl
    · exact h.decides k hk
  · refine (h.glides n pause frames hs f hf hglide).imp_right ?_
    rintro ⟨k, hk, hbegins⟩
    exact ⟨k, List.mem_cons_of_mem _ hk, hbegins⟩

theorem Decisive.andThen (h : Decisive self old ms s) {k : Machine → Step}
    {kt : Machine → List Moment} {later : List Frame} (hk : ∀ n, Decisive self old (kt n) (k n))
    (hl : Glideless later) :
    Decisive self old (ms ++ s.thenTrace kt) (s.andThen k later) := by
  refine ⟨fun moment hmoment => ?_, h.glides.andThen (fun n => (hk n).glides) hl⟩
  rcases List.mem_append.1 hmoment with hmoment | hmoment
  · exact (h.decides moment hmoment).andThen k hl
  · cases s with
    | done n => exact (hk n).decides moment hmoment
    | paused | ended => cases hmoment

theorem Decisive.andThen_silent (h : Decisive self old ms s) {k : Machine → Step}
    {later : List Frame} (hk : ∀ n, Decisive self old [] (k n)) (hl : Glideless later) :
    Decisive self old ms (s.andThen k later) := by
  have hthen := h.andThen hk hl
  rwa [s.thenTrace_nil, List.append_nil] at hthen

theorem decisive_eval {α : Type} {x : Eval α} {k : α → Machine → Step}
    {kt : α → Machine → List Moment} (hk : ∀ a n, Decisive self old (kt a n) (k a n)) :
    Decisive self old (m.evalTrace x kt) (m.eval x k) := by
  unfold eval evalTrace
  cases x.run.run m.random with
  | mk result random =>
    cases result with
    | ok a => exact hk a _
    | error e => exact ⟨nofun, nofun⟩

theorem decisive_eval_silent {α : Type} {x : Eval α} {k : α → Machine → Step}
    (hk : ∀ a n, Decisive self old [] (k a n)) : Decisive self old [] (m.eval x k) := by
  rw [← m.evalTrace_nil x]
  exact decisive_eval hk

theorem decisive_pass (head : Head) (body : List Stmt) {run : Machine → Step}
    {runTrace : Machine → List Moment} (h : ∀ n, Decisive self old (runTrace n) (run n)) :
    Decisive self old (m.passTrace self head runTrace) (m.pass self head body run) := by
  refine decisive_eval fun next n => ?_
  cases next with
  | none => exact decisive_done self old n
  | some head =>
    refine (h n).andThen_silent (fun l => ?_) (glideless_singleton rfl)
    exact decisive_paused (glideless_singleton rfl) self old l _

theorem decisive_askMouse (self : Self) (old : List Frame) (m : Machine) :
    Decisive self old [] (m.askMouse self) := by
  unfold askMouse
  dsimp only
  split
  · exact decisive_done self old _
  · exact decisive_paused glideless_nil self old _ _

theorem decisive_check (self : Self) (old : List Frame) (m : Machine) (condition : Expr)
    (syncMouse : Bool) : Decisive self old [] (m.check self condition syncMouse) := by
  refine decisive_eval_silent fun v n => ?_
  split
  · exact decisive_done self old n
  · exact decisive_paused (glideless_singleton rfl) self old n _

theorem decisive_waitUntil (self : Self) (old : List Frame) (m : Machine) (condition : Expr)
    (syncMouse : Bool) : Decisive self old [] (m.waitUntil self condition syncMouse) := by
  unfold waitUntil
  split
  · refine (decisive_askMouse self old m).andThen_silent (fun n => ?_) (glideless_singleton rfl)
    exact decisive_check self old n condition syncMouse
  · exact decisive_check self old m condition syncMouse

theorem decisive_follow (self : Self) (old : List Frame) (m : Machine) {sequel : Sequel}
    (h : ∀ way secs, sequel ≠ .glide way secs) : Decisive self old [] (m.follow self sequel) := by
  cases sequel with
  | proceed => exact decisive_done self old m
  | sleep span => exact decisive_paused glideless_nil self old m _
  | glide way secs => exact absurd rfl (h way secs)
  | unsay kind seq span => exact decisive_paused (glideless_singleton rfl) self old m _
  | broadcast message span =>
    cases span with
    | none => exact decisive_done self old _
    | some span => exact decisive_paused glideless_nil self old _ _
  | askMouse => exact decisive_askMouse self old m
  | stop scope => cases scope <;> exact ⟨nofun, nofun⟩

/-- Of the actions only a glide leaves a glide. -/
theorem glidesFrom_act (self : Self) (old : List Frame) (m : Machine) (a : Action) :
    GlidesFrom old [⟨m, .act a⟩] (exec self m (.act a)) := by
  intro n pause frames h f hf hglide
  rw [exec, act_eq, eval] at h
  split at h
  next result random hr =>
    obtain ⟨world, sequel⟩ := result
    have ho := Action.outcome hr
    by_cases hsequel : ∃ way time, sequel = .glide way time
    · obtain ⟨way, time, rfl⟩ := hsequel
      have hclock : world.clock = m.world.clock := ho.edited.clock
      cases ho.leadsTo
      cases h
      cases List.mem_singleton.1 hf
      refine .inr ⟨_, List.mem_singleton.2 rfl, _, _, _, way, time, rfl, ?_⟩
      rw [hclock]
    · have hplain := decisive_follow self old { m.counted with random, world }
        fun way time he => hsequel ⟨way, time, he⟩
      refine (hplain.glides n pause frames h f hf hglide).imp_right ?_
      rintro ⟨k, hk, -⟩
      cases hk
  next e random hr => cases h

end Decisive

mutual

theorem decisive_exec (self : Self) (old : List Frame) (m : Machine) :
    (s : Stmt) → Decisive self old (trace self m s) (exec self m s)
  | .act a => by
    rw [trace]
    refine ⟨fun k hk => ?_, glidesFrom_act self old m a⟩
    cases List.mem_singleton.1 hk
    exact Step.decides_refl _
  | .waitUntil condition syncMouse => by
    rw [trace]
    refine decisive_cons ?_
    rw [exec]
    exact decisive_waitUntil self old _ condition syncMouse
  | .repeatTimes times body => by
    rw [trace]
    refine decisive_cons ?_
    rw [exec]
    exact decisive_eval fun times n =>
      decisive_pass _ body fun l => decisive_execBlock self old l body
  | .repeatUntil condition body => by
    rw [trace]
    refine decisive_cons ?_
    rw [exec]
    exact decisive_pass _ body fun l => decisive_execBlock self old l body
  | .forever body => by
    rw [trace]
    refine decisive_cons ?_
    rw [exec]
    exact decisive_pass _ body fun l => decisive_execBlock self old l body
  | .branch condition thenBody elseBody => by
    rw [trace]
    refine decisive_cons ?_
    rw [exec]
    refine decisive_eval fun v n => ?_
    split
    · exact decisive_execBlock self old n thenBody
    · exact decisive_execBlock self old n elseBody

theorem decisive_execBlock (self : Self) (old : List Frame) (m : Machine) :
    (body : List Stmt) → Decisive self old (traceBlock self m body) (execBlock self m body)
  | [] => by
    rw [traceBlock, execBlock]
    exact decisive_done self old m
  | s :: rest => by
    rw [traceBlock, execBlock]
    refine (decisive_exec self old m s).andThen (fun n => ?_) (glideless_singleton rfl)
    exact decisive_execBlock self old n rest

end

theorem decisive_runFrame (self : Self) (m : Machine) {old : List Frame} {f : Frame}
    (hf : f ∈ old) : Decisive self old (frameTrace self m f) (runFrame self m f) := by
  cases f with
  | block rest => exact decisive_execBlock self old m rest
  | loop head body =>
    rw [frameTrace, runFrame]
    split
    · exact decisive_pass head body fun l => decisive_execBlock self old l body
    · exact decisive_paused (glideless_singleton rfl) self old m _
  | again head body => exact decisive_pass head body fun l => decisive_execBlock self old l body
  | glide way started secs =>
    rw [frameTrace, runFrame_glide_eq]
    refine decisive_eval_silent fun world n => ?_
    dsimp only
    split
    · exact decisive_done self old _
    · refine ⟨fun k hk => absurd hk List.not_mem_nil, ?_⟩
      rintro _ _ _ ⟨⟩ f hmem -
      rw [List.mem_singleton.1 hmem]
      exact .inl hf
  | unsay kind seq =>
    rw [frameTrace, runFrame_unsay_eq]
    exact decisive_eval_silent fun world n => decisive_done self old _
  | check condition syncMouse => exact decisive_check self old m condition syncMouse

theorem decisive_runFrames (self : Self) (m : Machine) {old frames : List Frame}
    (hold : frames ⊆ old) (h : Glideless frames.tail) :
    Decisive self old (framesTrace self m frames) (runFrames self m frames) := by
  induction frames generalizing m with
  | nil => exact ⟨nofun, nofun⟩
  | cons f rest ih =>
    rw [List.cons_subset] at hold
    refine (decisive_runFrame self m hold.1).andThen (fun n => ih n hold.2 ?_) h
    exact fun g hg => h g (List.mem_of_mem_tail hg)

/-! ### Queues -/

theorem queue_subset_enter (d : Desk) (count : Nat) : d.queue ⊆ (d.enter count).queue := by
  intro id hid
  simp only [Desk.queue, Desk.enter, List.mem_append] at hid ⊢
  grind

theorem queue_subset_wake (m : Machine) (ended : List Wait) :
    m.desk.queue ⊆ (m.wake ended).desk.queue := by
  intro id hid
  rw [desk_wake]
  simp only [Desk.queue, Desk.wake, List.mem_append] at hid ⊢
  rcases hid with (hid | hid) | hid
  · exact .inl (.inl (.inl hid))
  · exact .inl (.inr hid)
  · obtain ⟨w, hw, rfl⟩ := List.mem_map.1 hid
    by_cases hended : w ∈ ended
    · exact .inl (.inl (.inr (List.mem_map_of_mem hended)))
    · exact .inr (List.mem_map_of_mem (List.mem_filter.2 ⟨hw, by simpa using hended⟩))

theorem queue_subset_stop (m : Machine) (token : Token) :
    m.desk.queue ⊆ (m.stop token).desk.queue :=
  queue_subset_wake { m with stopped := token :: m.stopped } _

theorem queue_subset_halt (m : Machine) : m.desk.queue ⊆ m.halt.desk.queue :=
  queue_subset_stop { m with world := m.world.halt } m.run

theorem queue_subset_stopEntity (m : Machine) (id : EntityId) :
    m.desk.queue ⊆ (m.stopEntity id).desk.queue := by
  unfold stopEntity
  split
  next old _ => exact queue_subset_stop (m.openScope id) old
  · exact List.Subset.refl _

theorem queue_subset_stopTasks (m : Machine) (ts : List Task) :
    m.desk.queue ⊆ (ts.foldl (fun n t => n.stop t.token) m).desk.queue := by
  induction ts generalizing m with
  | nil => exact List.Subset.refl _
  | cons t rest ih => exact List.Subset.trans (queue_subset_stop m t.token) (ih _)

theorem queue_subset_spawnAll (m : Machine) (ls : List Listener) :
    m.desk.queue ⊆ (m.spawnAll ls).desk.queue := by
  obtain ⟨count, hdesk⟩ := desk_spawnAll m ls
  rw [hdesk]
  exact queue_subset_enter m.desk count

theorem queue_subset_broadcast (m : Machine) (name : String) (sender : EntityId) :
    m.desk.queue ⊆ (m.broadcast name sender).desk.queue := by
  obtain ⟨count, hdesk⟩ := desk_broadcast m name sender
  rw [hdesk]
  exact queue_subset_enter m.desk count

theorem queue_subset_suspend (m : Machine) (id : TaskId) (pause : Pause) (frames : List Frame) :
    m.desk.queue ⊆ (m.suspend id pause frames).desk.queue := by
  intro other hother
  simp only [Desk.queue, List.mem_append] at hother ⊢
  cases pause with
  | yield =>
    refine hother.imp_left fun hother => hother.imp_right fun hother => ?_
    exact List.mem_append_left _ hother
  | sleep | mouse =>
    refine hother.imp_right fun hother => ?_
    exact List.map_subset _ (List.subset_append_left _ _) hother

theorem Path.queue_subset {self : Self} {m n : Machine} {ms : List Moment} (h : Path self m ms n) :
    m.desk.queue ⊆ n.desk.queue := by
  induction h with
  | refl m => exact List.Subset.refl _
  | effect he _ ih =>
    refine List.Subset.trans ?_ ih
    cases he with
    | broadcast message => exact queue_subset_broadcast _ message _
    | stopOthers => exact queue_subset_stopTasks _ _
    | _ => exact List.Subset.refl _
  | stmt s _ _ ih => exact ih

theorem Polled.queue_subset {m n : Machine} {id : TaskId} {ms : List Moment}
    (h : Polled m id ms n) : m.desk.queue ⊆ n.desk.queue := by
  have hfinish : ∀ (l : Machine) (t : Task) ending, (l.finish t ending).desk.queue = l.desk.queue :=
    fun l t ending => by rw [(desk_finish l t ending).1]
  cases h with
  | absent => exact List.Subset.refl _
  | stopped => exact List.Subset.refl _
  | paused _ _ hp pause frames =>
    exact List.Subset.trans hp.queue_subset (queue_subset_suspend _ id pause frames)
  | ended _ _ hp =>
    rw [hfinish]
    exact hp.queue_subset
  | @stoppedAll t _ n _ _ hp =>
    exact List.Subset.trans hp.queue_subset (queue_subset_halt n.counted)
  | @stoppedSprite t _ n _ _ hp =>
    exact List.Subset.trans hp.queue_subset (queue_subset_stopEntity n.counted t.entity)

theorem queue_subset_handle (m : Machine) (command : HostCommand) :
    m.desk.queue ⊆ (m.handle command).desk.queue := by
  cases command with
  | loadProgram | stop => exact queue_subset_halt m
  | start =>
    obtain ⟨scopes, serial, ho⟩ := opened_shape m
    have hopened : m.desk.queue ⊆ m.opened.desk.queue := by
      rw [ho]
      exact queue_subset_halt m
    show _ ⊆ m.start.desk.queue
    rw [start_eq]
    exact List.Subset.trans hopened (queue_subset_spawnAll _ _)
  | keyDown key =>
    simp only [handle, keyDown]
    split
    · exact queue_subset_spawnAll
        { m with world := { m.world with keys := m.world.keys.insert (Name.key key) } }
        (m.world.switchboard.keyListeners (Name.key key))
    · exact List.Subset.refl _
  | clickEntity id =>
    simp only [handle, click]
    split
    · exact queue_subset_spawnAll m _
    · exact List.Subset.refl _
  | mousePosition x y => exact queue_subset_wake { m with world := m.world.setMouse ⟨x, y⟩ } _
  | updateCode id program =>
    simp only [handle, updateCode]
    repeat' split
    all_goals exact List.Subset.refl _
  | keyUp | shutdown => exact List.Subset.refl _

theorem mem_queue_move {m : Machine} {move : Move} {id : TaskId} (h : move ≠ .poll id)
    (hid : id ∈ m.desk.queue) : id ∈ (m.move move).desk.queue := by
  cases move with
  | command command => exact queue_subset_handle m command hid
  | broadcast name sender => exact queue_subset_broadcast m name sender hid
  | close => exact queue_subset_halt m hid
  | reach time =>
    exact queue_subset_wake { m with world := { m.world with clock := time } } _ hid
  | resume =>
    have hqueue : (m.move .resume).desk.queue =
        m.ready ++ m.yielded.reverse ++ [] ++ m.waits.map (·.task) := rfl
    rw [hqueue]
    simpa [Desk.queue, desk] using hid
  | poll other =>
    simp only [Machine.move]
    split
    · refine (polled_poll (m.dequeue other) other).queue_subset ?_
      have hne : id ≠ other := fun he => h (he ▸ rfl)
      simp only [Desk.queue, dequeue, desk, List.mem_append] at hid ⊢
      rw [List.mem_erase_of_ne hne]
      exact hid
    · exact hid

/-! ### Waiting for a turn -/

/-- Unless the task has been stopped, it is in a queue, and it goes on with the frames. -/
structure Due (l : Leaf) (frames : List Frame) (m : Machine) : Prop where
  old : l.id < m.nextTask
  task : ∀ u ∈ m.tasks, u.id = l.id → u.leaf = l ∧ u.frames = frames
  waiting : m.isStopped l.token = false → l.id ∈ m.ledger.ids ∧ l.id ∈ m.desk.queue

/-- Does the task go on with the move? A stopped task only ends. -/
def goesOn (m : Machine) (id : TaskId) : Move → Bool
  | .poll other =>
    other == id && m.ready.contains id && (m.task? id).any fun t => !m.isStopped t.token
  | _ => false

theorem goesOn_iff {m : Machine} {id : TaskId} {move : Move} :
    m.goesOn id move = true ↔
      move = .poll id ∧ id ∈ m.ready ∧ ∃ t, m.task? id = some t ∧ m.isStopped t.token = false := by
  cases move with
  | poll other => simp [goesOn, Option.any_eq_true, and_assoc]
  | _ => simp [goesOn]

variable {m : Machine} {l : Leaf} {frames : List Frame}

theorem turnOf_eq_some {move : Move} {id : TaskId} (h : m.turnOf move = some id) :
    move = .poll id := by
  cases move with
  | poll other =>
    simp only [turnOf] at h
    split at h
    · obtain ⟨t, ht, rfl⟩ := Option.map_eq_some_iff.1 h
      rw [(mem_of_task? ht).2]
    · cases h
  | _ => cases h

theorem Due.move_other {move : Move} (h : Due l frames m) (hm : m.Sound)
    (hmove : move ≠ .poll l.id) : Due l frames (m.move move) := by
  have hmoved := moved_move m move
  have hkeeps : Keeps l.id m (m.move move) := .moved hmove hmoved
  refine ⟨Nat.lt_of_lt_of_le h.old hkeeps.nextTask, fun u hu hid => ?_, fun hs => ?_⟩
  · rcases hkeeps.tasks u hu hid with ⟨t, ht, hleaf, hframes⟩ | ⟨hnew, -⟩
    · obtain ⟨htl, htf⟩ := h.task t ht ((congrArg Leaf.id hleaf).trans hid)
      exact ⟨hleaf ▸ htl, hframes ▸ htf⟩
    · exact absurd h.old (Nat.not_lt.2 hnew)
  · have hbefore : m.isStopped l.token = false := by
      cases hstopped : m.isStopped l.token with
      | false => rfl
      | true => exact absurd (hmoved.later.stopped l.token hstopped) (Bool.eq_false_iff.1 hs)
    obtain ⟨hids, hqueue⟩ := h.waiting hbefore
    refine ⟨(hm.step_move move).mem_ids (fun hturn => hmove (turnOf_eq_some hturn)) hids, ?_⟩
    exact mem_queue_move hmove hqueue

/-- What a poll of a task comes to that does not go on with it. -/
inductive Idles (m : Machine) (id : TaskId) : Machine → Prop where
  | unready : Idles m id m
  | absent (h : m.task? id = none) : Idles m id (m.dequeue id)
  | stopped {t : Task} (ht : m.task? id = some t) (hs : m.isStopped t.token = true) :
      Idles m id ((m.dequeue id).finish t .cancelled)

theorem idles_of_goesOn_eq_false {id : TaskId} (h : m.goesOn id (.poll id) = false) :
    Idles m id (m.move (.poll id)) := by
  simp only [Machine.move]
  split
  next hready =>
    cases ht : m.task? id with
    | none =>
      have ht' : (m.dequeue id).task? id = none := ht
      simp only [poll, ht']
      exact .absent ht
    | some t =>
      have hs : m.isStopped t.token = true := by
        cases hs : m.isStopped t.token with
        | true => rfl
        | false =>
          rw [goesOn_iff.2 ⟨rfl, hready, t, ht, hs⟩] at h
          cases h
      have ht' : (m.dequeue id).task? id = some t := ht
      have hs' : (m.dequeue id).isStopped t.token = true := hs
      simp only [poll, ht', hs', if_true]
      exact .stopped ht hs
  · exact .unready

/-- The task stays as it is until it goes on or ends because it has been stopped. -/
theorem Due.move {move : Move} (h : Due l frames m) (hm : m.Sound)
    (hmove : m.goesOn l.id move = false) : Due l frames (m.move move) := by
  by_cases hpoll : move = .poll l.id
  · subst hpoll
    have hidles := idles_of_goesOn_eq_false hmove
    generalize m.move (.poll l.id) = n at hidles ⊢
    cases hidles with
    | unready => exact h
    | absent ht =>
      -- Only a stopped task can have left the table.
      have hnot : l.id ∉ m.ledger.ids := by
        rw [ids_ledger]
        intro hmem
        obtain ⟨u, hu, hid⟩ := List.mem_map.1 hmem
        exact List.find?_eq_none.1 ht u hu (by simpa using hid)
      exact ⟨h.old, h.task, fun hs => absurd (h.waiting hs).1 hnot⟩
    | @stopped t ht hstopped =>
      obtain ⟨hmem, hid⟩ := mem_of_task? ht
      refine ⟨h.old, fun u hu => h.task u (List.mem_filter.1 hu).1, fun hs => ?_⟩
      rw [← (h.task t hmem hid).1] at hs
      exact absurd hstopped (Bool.eq_false_iff.1 hs)
  · exact h.move_other hm hpoll

end Machine

/-! ### Ends of turns -/

/-- The machine after the turn of a task. -/
def Step.settled (t : Task) : Step → Machine
  | .done m => m.finish t .completed
  | .paused m pause frames => m.suspend t.id pause frames
  | .ended m ending => m.finish t ending

namespace Machine

variable {m : Machine} {id : TaskId} {t : Task}

theorem move_poll (hid : id ∈ m.ready) (ht : m.task? id = some t)
    (hs : m.isStopped t.token = false) :
    m.move (.poll id) = (runFrames ⟨id, t.entity⟩ (m.begun id) t.frames).settled t := by
  have hmove : m.move (.poll id) = (m.dequeue id).poll id := if_pos hid
  have ht' : (m.dequeue id).task? id = some t := ht
  have hs' : (m.dequeue id).isStopped t.token = false := hs
  rw [hmove]
  simp only [poll, ht', hs', Bool.false_eq_true, if_false, begun]
  cases runFrames _ _ t.frames with
  | paused n pause frames => rw [Step.settled, (mem_of_task? ht).2]
  | done | ended => rfl

theorem moveTrace_poll (hid : id ∈ m.ready) (ht : m.task? id = some t)
    (hs : m.isStopped t.token = false) :
    m.moveTrace (.poll id) = framesTrace ⟨id, t.entity⟩ (m.begun id) t.frames := by
  have hmove : m.moveTrace (.poll id) = (m.dequeue id).pollTrace id := if_pos hid
  have ht' : (m.dequeue id).task? id = some t := ht
  have hs' : (m.dequeue id).isStopped t.token = false := hs
  rw [hmove]
  simp only [pollTrace, ht', hs', Bool.false_eq_true, if_false, begun]

/-- In its turn a task executes something only if it goes on. -/
theorem goesOn_of_mem_moveTrace {k : Moment} (hk : k ∈ m.moveTrace (.poll id)) :
    ∃ t, id ∈ m.ready ∧ m.task? id = some t ∧ m.isStopped t.token = false := by
  simp only [moveTrace] at hk
  split at hk
  next hready =>
    have htask : (m.dequeue id).task? id = m.task? id := rfl
    simp only [pollTrace, htask] at hk
    split at hk
    · cases hk
    next t ht =>
      split at hk
      · cases hk
      next hs => exact ⟨t, hready, ht, Bool.eq_false_iff.2 hs⟩
  · cases hk

/-- A statement that pauses or ends its task is the last one of the turn. -/
theorem Reachable.decides (hm : m.Reachable) {k : Moment} (hk : k ∈ m.moveTrace (.poll id)) :
    ∃ (t : Task) (whole : Step), m.task? id = some t ∧ m.isStopped t.token = false ∧
      m.move (.poll id) = whole.settled t ∧
      whole.Decides (exec ⟨id, t.entity⟩ k.machine k.stmt) := by
  obtain ⟨t, hready, ht, hs⟩ := goesOn_of_mem_moveTrace hk
  rw [moveTrace_poll hready ht hs] at hk
  have htail := hm.glideless_tail (mem_of_task? ht).1
  exact ⟨t, _, ht, hs, move_poll hready ht hs,
    (decisive_runFrames _ _ (List.Subset.refl _) htail).decides k hk⟩

/-! ### Where glides come from -/

theorem GlidesFrom.settled {old : List Frame} {ms : List Moment} {s : Step} {u : Task} {f : Frame}
    (h : GlidesFrom old ms s) (hu : u ∈ (s.settled t).tasks) (hid : u.id = t.id)
    (hf : f ∈ u.frames) (hglide : f.isGlide = true) : f ∈ old ∨ ∃ k ∈ ms, k.Begins f := by
  cases s with
  | done n => exact absurd hid (not_mem_finish n t _ u hu)
  | ended n ending => exact absurd hid (not_mem_finish n t _ u hu)
  | paused n pause frames =>
    obtain ⟨v, -, -, rfl⟩ := eq_of_mem_suspend hu hid
    exact h n pause frames rfl f hf hglide

/-- A task is on the glides that it was on, or on one that it begins in its turn. -/
theorem Reachable.glide_of_move (hm : m.Reachable) {move : Move} {u : Task} {f : Frame}
    (hu : u ∈ (m.move move).tasks) (hf : f ∈ u.frames) (hglide : f.isGlide = true) :
    (∃ t ∈ m.tasks, t.id = u.id ∧ f ∈ t.frames) ∨
      m.goesOn u.id move = true ∧ ∃ k ∈ m.moveTrace move, k.Begins f := by
  by_cases hmove : move = .poll u.id
  · subst hmove
    cases hgoes : m.goesOn u.id (.poll u.id) with
    | true =>
      obtain ⟨-, hready, t, ht, hs⟩ := goesOn_iff.1 hgoes
      obtain ⟨hmem, hid⟩ := mem_of_task? ht
      rw [move_poll hready ht hs] at hu
      have hdecisive := decisive_runFrames ⟨u.id, t.entity⟩ (m.begun u.id)
        (List.Subset.refl t.frames) (hm.glideless_tail hmem)
      rw [moveTrace_poll hready ht hs]
      refine (hdecisive.glides.settled hu hid.symm hf hglide).imp (fun hold => ?_)
        fun hk => ⟨rfl, hk⟩
      exact ⟨t, hmem, hid, hold⟩
    | false =>
      have hsub : (m.move (.poll u.id)).tasks ⊆ m.tasks := by
        have hidles := idles_of_goesOn_eq_false hgoes
        generalize m.move (.poll u.id) = n at hidles ⊢
        cases hidles with
        | unready | absent => exact List.Subset.refl _
        | stopped => exact fun v hv => (List.mem_filter.1 hv).1
      exact .inl ⟨u, hsub hu, rfl, hf⟩
  · rcases (Keeps.moved hmove (moved_move m move)).tasks u hu rfl with
      ⟨t, ht, hleaf, hframes⟩ | ⟨-, body, hbody⟩
    · exact .inl ⟨t, ht, congrArg Leaf.id hleaf, hframes ▸ hf⟩
    · rw [hbody] at hf
      exact absurd hglide ((glideless_singleton rfl).isGlide_ne hf)

theorem Sound.due_suspend {l : Leaf} (h : m.Sound) (hl : m.tree.Live l) (pause : Pause)
    (frames : List Frame) : Due l frames (m.suspend l.id pause frames) := by
  have hmem : l.id ∈ m.ledger.ids := by
    rw [ids_ledger]
    obtain ⟨t, ht, rfl⟩ := List.mem_map.1 hl.1
    exact List.mem_map_of_mem ht
  refine ⟨?_, fun u hu hid => ?_, fun _ => ⟨?_, ?_⟩⟩
  · obtain ⟨tasks, yielded, waits, he⟩ := suspend_shape m l.id pause frames
    rw [he]
    exact (h.tree.leaf l hl.1).1
  · obtain ⟨v, hv, hvid, rfl⟩ := eq_of_mem_suspend hu hid
    have hleaf : v.leaf = l := h.tree.eq_of_id_eq (List.mem_map_of_mem hv) hl.1 hvid
    exact ⟨hleaf, rfl⟩
  · rw [ledger_suspend, Ledger.ids_mark]
    exact hmem
  · rcases awaits_suspend m l.id pause frames with hyielded | ⟨w, hw, hid⟩
    · exact List.mem_append_left _ (List.mem_append_right _ hyielded)
    · exact List.mem_append_right _ (List.mem_map.2 ⟨w, hw, hid⟩)

theorem events_finish (m : Machine) (t : Task) (ending : Ending ScriptError) :
    m.world.events <+: (m.finish t ending).world.events := by
  cases ending with
  | completed | cancelled => exact List.prefix_refl _
  | failed e =>
    simp only [finish]
    split
    · obtain ⟨reported, news, -, he⟩ := reportFailure_shape m.world t.entity e
      rw [he]
      exact List.prefix_append _ _
    · exact List.prefix_refl _

theorem world_settled_paused (m : Machine) (t : Task) (pause : Pause) (frames : List Frame) :
    ((Step.paused m pause frames).settled t).world = m.world := by
  cases pause <;> rfl

theorem Account.events_settled {self : Self} {ms : List Moment} {s : Step}
    (h : Account self m ms s) (t : Task) : m.world.events <+: (s.settled t).world.events := by
  have hpath : ∀ {ms n}, Path self m ms n → m.world.events <+: n.world.events := by
    intro ms n hp
    obtain ⟨-, news, hnews, -⟩ := hp.edited.quiet
    exact hnews ▸ List.prefix_append _ _
  cases h with
  | done hp => exact (hpath hp).trans (events_finish _ t _)
  | paused hp pause frames =>
    rw [world_settled_paused]
    exact hpath hp
  | ended hp ending => exact (hpath hp).trans (events_finish _ t ending)
  | @stoppedAll ms n hp =>
    refine (hpath hp).trans (List.IsPrefix.trans ?_ (events_finish _ t _))
    rw [world_stopAll]
    exact List.prefix_append _ _
  | @stoppedSprite ms n hp =>
    refine (hpath hp).trans (List.IsPrefix.trans ?_ (events_finish _ t _))
    have hedited : n.counted.world.Edited true true _ := edited_stopEntity n.counted self.entity
    obtain ⟨-, news, hnews, -⟩ := hedited.quiet
    exact hnews ▸ List.prefix_append _ _

end Machine

end SpriteStage
