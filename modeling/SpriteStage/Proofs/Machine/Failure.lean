import SpriteStage.Proofs.Machine.Action
import SpriteStage.Proofs.Machine.Sound

/-!
How a task fails.

The entity of a task that has its turn exists, so only a statement can fail, by its arguments or by
what it asks for. It is then the last one of the turn and has done nothing but draw random numbers
(`Machine.FailsLast`). So a failure takes its task out of the table and is reported, and all else is
as it was before that statement.
-/

namespace SpriteStage

structure Failure where
  task : TaskId
  entity : EntityId
  error : ScriptError

namespace Machine

def pollFailure? (m : Machine) (id : TaskId) : Option Failure :=
  match m.task? id with
  | none => none
  | some t =>
    if m.isStopped t.token then none
    else
      match runFrames ⟨id, t.entity⟩ (m.setTask id ({ · with state := .running })) t.frames with
      | .ended _ (.failed e) => some ⟨id, t.entity, e⟩
      | _ => none

/-- The failure of the task that has its turn in a move. -/
def failure? (m : Machine) : Move → Option Failure
  | .poll id => if id ∈ m.ready then (m.dequeue id).pollFailure? id else none
  | _ => none

/-! ### The last statement -/

/-- If the step is a failure, it is that of the last statement, which has changed nothing. -/
def FailsLast (self : Self) (ms : List Moment) (s : Step) : Prop :=
  ∀ n e, s = .ended n (.failed e) →
    e.Known ∧ ∃ ks k random, ms = ks ++ [k] ∧ n = { k.machine.counted with random } ∧
      exec self k.machine k.stmt = .ended n (.failed e)

namespace FailsLast

variable {self : Self} {m : Machine} {ms ks : List Moment} {s : Step}

theorem of_ne (h : ∀ n e, s ≠ .ended n (.failed e)) : FailsLast self ms s :=
  fun n e hs => absurd hs (h n e)

theorem after (h : FailsLast self ks s) (ms : List Moment) : FailsLast self (ms ++ ks) s := by
  intro n e hs
  obtain ⟨hknown, before, k, random, rfl, hrest⟩ := h n e hs
  exact ⟨hknown, ms ++ before, k, random, (List.append_assoc ms before [k]).symm, hrest⟩

theorem andThen (h : FailsLast self ms s) {k : Machine → Step} {kt : Machine → List Moment}
    (hk : ∀ n, s = .done n → FailsLast self (kt n) (k n)) (later : List Frame) :
    FailsLast self (ms ++ s.thenTrace kt) (s.andThen k later) := by
  cases s with
  | done n => exact (hk n rfl).after ms
  | paused n pause frames => exact of_ne nofun
  | ended n ending =>
    rw [Step.thenTrace, List.append_nil]
    exact h

theorem andThen_silent (h : FailsLast self ms s) {k : Machine → Step}
    (hk : ∀ n, FailsLast self [] (k n)) (later : List Frame) :
    FailsLast self ms (s.andThen k later) := by
  have ht := h.andThen (fun n _ => hk n) later
  rwa [s.thenTrace_nil, List.append_nil] at ht

theorem eval_total {α : Type} {x : Eval α} (hx : x.Total) {k : α → Machine → Step}
    {kt : α → Machine → List Moment}
    (hk : ∀ a random, FailsLast self (kt a { m with random }) (k a { m with random })) :
    FailsLast self (m.evalTrace x kt) (m.eval x k) := by
  obtain ⟨a, random, ha⟩ := hx m.random
  simp only [evalTrace, Machine.eval, ha]
  exact hk a random

/-- A statement that evaluates something first may fail there. -/
theorem eval_known {stmt : Stmt} {α : Type} {x : Eval α} {Q : α → Prop} {id : EntityId}
    (hx : x.Meets Q (m.world.Refuses id)) (hid : id < m.world.entities.length)
    {k : α → Machine → Step} {kt : α → Machine → List Moment}
    (hexec : exec self m stmt = m.counted.eval x k)
    (hk : ∀ a random,
      FailsLast self (kt a { m.counted with random }) (k a { m.counted with random })) :
    FailsLast self (⟨m, stmt⟩ :: m.counted.evalTrace x kt) (exec self m stmt) := by
  intro n e hs
  have hs' := hexec.symm.trans hs
  have hmeets := hx m.counted.random
  cases hr : x.run.run m.counted.random with
  | mk result random =>
    rw [hr] at hmeets
    simp only [Machine.eval, hr] at hs'
    simp only [evalTrace, hr]
    cases result with
    | ok a => exact (hk a random).after [⟨m, stmt⟩] n e hs'
    | error e' =>
      cases hs'
      exact ⟨hmeets hid, [], ⟨m, stmt⟩, random, rfl, rfl, hs⟩

end FailsLast

section Statements

variable {self : Self} {m : Machine}

theorem follow_ne_failed (m : Machine) (self : Self) (sequel : Sequel) (n : Machine) (e : ScriptError) :
    m.follow self sequel ≠ .ended n (.failed e) := by
  cases sequel with
  | broadcast message span => cases span <;> nofun
  | stop scope => cases scope <;> nofun
  | askMouse =>
    simp only [follow, askMouse]
    split <;> nofun
  | _ => nofun

theorem failsLast_act (h : self.entity < m.world.entities.length) (a : Action) :
    FailsLast self [⟨m, .act a⟩] (exec self m (.act a)) := by
  rw [← m.counted.evalTrace_nil (a.run m.world self.entity)]
  refine .eval_known (a.meets_run _ _) h (by rw [exec, act_eq]; rfl) fun p random => ?_
  exact .of_ne (follow_ne_failed _ self p.2)

theorem check_ne_failed (h : self.entity < m.world.entities.length) (condition : Expr)
    (syncMouse : Bool) (n : Machine) (e : ScriptError) :
    m.check self condition syncMouse ≠ .ended n (.failed e) := by
  obtain ⟨v, random, hv⟩ := condition.total_eval h m.random
  simp only [check, Machine.eval, hv]
  split <;> rintro ⟨⟩

theorem waitUntil_ne_failed (h : self.entity < m.world.entities.length) (condition : Expr)
    (syncMouse : Bool) (n : Machine) (e : ScriptError) :
    m.waitUntil self condition syncMouse ≠ .ended n (.failed e) := by
  unfold waitUntil
  split
  · simp only [askMouse]
    split
    · apply check_ne_failed
      exact h
    · nofun
  · exact check_ne_failed h condition syncMouse n e

theorem Head.total_next {w : World} {id : EntityId} (h : id < w.entities.length) (head : Head) :
    (head.next w id).Total := by
  cases head with
  | times left => cases left <;> exact Eval.total_pure _
  | untilTrue condition =>
    exact Eval.total_bind (condition.total_eval h) fun v => Eval.total_pure _
  | always => exact Eval.total_pure _

theorem failsLast_pass (h : self.entity < m.world.entities.length) (head : Head) (body : List Stmt)
    {run : Machine → Step} {runTrace : Machine → List Moment}
    (hrun : ∀ random, FailsLast self (runTrace { m with random }) (run { m with random })) :
    FailsLast self (m.passTrace self head runTrace) (m.pass self head body run) := by
  refine .eval_total (Head.total_next h head) fun next random => ?_
  cases next with
  | none => exact .of_ne nofun
  | some head =>
    refine (hrun random).andThen_silent (fun _ => .of_ne ?_) [.loop head body]
    nofun

/-- Going on leaves all entities where they are. -/
theorem length_of_done {ms : List Moment} {s : Step} {n : Machine} (ha : Account self m ms s)
    (hs : s = .done n) : n.world.entities.length = m.world.entities.length := by
  cases ha with
  | done hp =>
    cases hs
    exact hp.edited.acted.length
  | _ => cases hs

end Statements

mutual

theorem failsLast_exec (self : Self) (m : Machine) (h : self.entity < m.world.entities.length) :
    (s : Stmt) → FailsLast self (trace self m s) (exec self m s)
  | .act a => by
    rw [trace]
    exact failsLast_act h a
  | .waitUntil condition syncMouse => by
    rw [exec]
    exact .of_ne (waitUntil_ne_failed (m := m.counted) h condition syncMouse)
  | .repeatTimes times body => by
    rw [trace]
    refine .eval_known (times.meets_evalNumber _ _ "TIMES") h (by rw [exec]) fun passes random => ?_
    refine failsLast_pass (m := { m.counted with random }) h _ body fun random => ?_
    exact failsLast_execBlock self { m.counted with random } h body
  | .repeatUntil condition body => by
    rw [trace, exec]
    refine (failsLast_pass (m := m.counted) h _ body fun random => ?_).after [⟨m, _⟩]
    exact failsLast_execBlock self { m.counted with random } h body
  | .forever body => by
    rw [trace, exec]
    refine (failsLast_pass (m := m.counted) h _ body fun random => ?_).after [⟨m, _⟩]
    exact failsLast_execBlock self { m.counted with random } h body
  | .branch condition thenBody elseBody => by
    rw [trace, exec]
    refine (FailsLast.eval_total (condition.total_eval h) fun v random => ?_).after [⟨m, _⟩]
    split
    · exact failsLast_execBlock self { m.counted with random } h thenBody
    · exact failsLast_execBlock self { m.counted with random } h elseBody

theorem failsLast_execBlock (self : Self) (m : Machine) (h : self.entity < m.world.entities.length) :
    (body : List Stmt) → FailsLast self (traceBlock self m body) (execBlock self m body)
  | [] => by
    rw [execBlock]
    exact .of_ne nofun
  | s :: rest => by
    rw [traceBlock, execBlock]
    refine (failsLast_exec self m h s).andThen (fun n hn => ?_) [.block rest]
    refine failsLast_execBlock self n ?_ rest
    rw [length_of_done (account_exec self m s) hn]
    exact h

end

/-! ### Turns -/

theorem glideTo_of_lt {w : World} {id : EntityId} (h : id < w.entities.length)
    (way : Stage.Glide Float) (share : Float) : ∃ w', w.glideTo id way share = .ok w' := by
  obtain ⟨e, he⟩ := World.entity_of_lt h
  simp only [World.glideTo, he]
  exact ⟨_, rfl⟩

theorem clearSpeech_of_lt {w : World} {id : EntityId} (h : id < w.entities.length)
    (kind : SpeechKind) (seq : Nat) : ∃ w', w.clearSpeech id kind seq = .ok w' := by
  obtain ⟨e, he⟩ := World.entity_of_lt h
  simp only [World.clearSpeech, he, bind, Except.bind]
  split <;> exact ⟨_, rfl⟩

theorem failsLast_runFrame (self : Self) {m : Machine} (h : self.entity < m.world.entities.length)
    (f : Frame) : FailsLast self (frameTrace self m f) (runFrame self m f) := by
  cases f with
  | block rest => exact failsLast_execBlock self m h rest
  | loop head body =>
    rw [frameTrace, runFrame]
    split
    · exact failsLast_pass h head body fun random => failsLast_execBlock self { m with random } h body
    · exact .of_ne (by rintro n e ⟨⟩)
  | again head body =>
    exact failsLast_pass h head body fun random => failsLast_execBlock self { m with random } h body
  | glide way started secs =>
    refine .of_ne fun n e => ?_
    obtain ⟨w, hw⟩ := glideTo_of_lt h way
      ((Span.ofMillis (m.world.clock - started)).toSeconds / secs)
    simp only [runFrame_glide_eq, hw]
    show (if _ then _ else _) ≠ _
    split <;> rintro ⟨⟩
  | unsay kind seq =>
    refine .of_ne fun n e => ?_
    obtain ⟨w, hw⟩ := clearSpeech_of_lt h kind seq
    simp only [runFrame_unsay_eq, hw]
    rintro ⟨⟩
  | check condition syncMouse => exact .of_ne (check_ne_failed h condition syncMouse)

theorem failsLast_runFrames (self : Self) {m : Machine} (h : self.entity < m.world.entities.length)
    (frames : List Frame) : FailsLast self (framesTrace self m frames) (runFrames self m frames) := by
  induction frames generalizing m with
  | nil => exact .of_ne nofun
  | cons f rest ih =>
    refine (failsLast_runFrame self h f).andThen (fun n hn => ih ?_) rest
    rw [length_of_done (account_runFrame self m f) hn]
    exact h

variable {m : Machine}

theorem Sound.entity_lt (h : m.Sound) {l : Leaf} (hl : m.tree.Live l) :
    l.entity < m.world.entities.length := by
  obtain ⟨scope, hlookup, _⟩ := h.tree.attached l hl.1 hl.2
  exact (h.tree.scope l.entity scope (ScopeTree.mem_of_lookup hlookup)).1

/-- After the statement that fails, the task is gone, and nothing else has changed but what is
counted, drawn and reported. -/
structure EndsAlone (f : Failure) (k : Moment) (n : Machine) : Prop where
  fails : ∃ l, exec ⟨f.task, f.entity⟩ k.machine k.stmt = .ended l (.failed f.error)
  alone : ∃ random reported news,
    (news = [] ∨ news = [.runtimeError (some f.entity) f.error.message]) ∧
    n = { k.machine with
      random
      statements := k.machine.statements + 1
      tasks := k.machine.tasks.filter (·.id != f.task)
      stats := k.machine.stats.count (.failed f.error)
      world := { k.machine.world with reported, events := k.machine.world.events ++ news } }

theorem finish_failed (hr : m.world.running = true) (t : Task) (e : ScriptError) :
    m.finish t (.failed e) =
      { m with
        tasks := m.tasks.filter (·.id != t.id)
        stats := m.stats.count (.failed e)
        world := m.world.reportFailure t.entity e } := by
  simp only [finish, hr, if_true]

theorem reportFailure_shape (w : World) (id : EntityId) (e : ScriptError) :
    ∃ reported news, (news = [] ∨ news = [.runtimeError (some id) e.message]) ∧
      w.reportFailure id e = { w with reported, events := w.events ++ news } := by
  unfold World.reportFailure
  split
  · exact ⟨w.reported, [], .inl rfl, by rw [List.append_nil]⟩
  · exact ⟨_, _, .inr rfl, rfl⟩

/-- How a failing turn goes. -/
theorem Sound.failed_poll {id : TaskId} {f : Failure} (h : m.Sound)
    (hf : m.pollFailure? id = some f) :
    f.error.Known ∧ f.task = id ∧ ∃ t, m.task? id = some t ∧ t.entity = f.entity ∧
      m.isStopped t.token = false ∧ ∃ ks k random, m.pollTrace id = ks ++ [k] ∧
        exec ⟨f.task, f.entity⟩ k.machine k.stmt =
          .ended { k.machine.counted with random } (.failed f.error) ∧
        m.poll id = { k.machine.counted with random }.finish t (.failed f.error) := by
  unfold pollFailure? at hf
  split at hf
  · cases hf
  next t ht =>
    split at hf
    · cases hf
    next hs =>
      have hs' : m.isStopped t.token = false := by simpa using hs
      have hlt : t.entity < m.world.entities.length :=
        h.entity_lt (l := t.leaf) ⟨List.mem_map_of_mem (mem_of_task? ht).1, hs'⟩
      split at hf
      next n e hrun =>
        cases hf
        obtain ⟨hknown, ks, k, random, htrace, rfl, hexec⟩ := failsLast_runFrames ⟨id, t.entity⟩
          (m := m.setTask id ({ · with state := .running })) hlt t.frames n e hrun
        refine ⟨hknown, rfl, t, ht, rfl, hs', ks, k, random, ?_, hexec, ?_⟩
        · simp only [pollTrace, ht, hs', Bool.false_eq_true, if_false]
          exact htrace
        · simp only [Machine.poll, ht, hs', Bool.false_eq_true, if_false, hrun]
      · cases hf

theorem Sound.failed_move {move : Move} {f : Failure} (h : m.Sound) (hf : m.failure? move = some f) :
    f.error.Known ∧ move = .poll f.task ∧ ∃ t ∈ m.tasks, t.id = f.task ∧ t.entity = f.entity ∧
      m.isStopped t.token = false ∧ ∃ ks k random, m.moveTrace move = ks ++ [k] ∧
        exec ⟨f.task, f.entity⟩ k.machine k.stmt =
          .ended { k.machine.counted with random } (.failed f.error) ∧
        k.machine.world.running = true ∧
        m.move move = { k.machine.counted with random }.finish t (.failed f.error) := by
  cases move with
  | poll id =>
    simp only [failure?] at hf
    split at hf
    next hid =>
      obtain ⟨hknown, htask, t, ht, hentity, hs, ks, k, random, htrace, hexec, hpoll⟩ :=
        (h.dequeue id).failed_poll hf
      obtain ⟨hmem, hid'⟩ := mem_of_task? ht
      have htrace' : m.moveTrace (.poll id) = ks ++ [k] := by
        simp only [moveTrace, hid, if_true]
        exact htrace
      have hrunning : k.machine.world.running = true := by
        have hk : k ∈ m.moveTrace (.poll id) := by simp [htrace']
        obtain ⟨hsound, u, _, _, _, hlive⟩ := h.at_moment hk
        exact hsound.tree.running_of_live hlive
      refine ⟨hknown, by rw [htask], t, hmem, hid'.trans htask.symm, hentity, hs, ks, k, random,
        htrace', hexec, hrunning, ?_⟩
      simp only [Machine.move, hid, if_true]
      exact hpoll
    · cases hf
  | _ => cases hf

theorem Sound.ends_alone {move : Move} {f : Failure} (h : m.Sound) (hf : m.failure? move = some f) :
    ∃ ks k, m.moveTrace move = ks ++ [k] ∧ EndsAlone f k (m.move move) := by
  obtain ⟨_, _, t, _, hid, hentity, _, ks, k, random, htrace, hexec, hrunning, hmove⟩ :=
    h.failed_move hf
  obtain ⟨reported, news, hnews, hreport⟩ := reportFailure_shape k.machine.world t.entity f.error
  refine ⟨ks, k, htrace, ⟨_, hexec⟩, random, reported, news, hentity ▸ hnews, ?_⟩
  rw [hmove, finish_failed (m := { k.machine.counted with random }) hrunning, ← hid, ← hreport]
  rfl

end Machine

end SpriteStage
