import SpriteStage.Machine.Execute
import SpriteStage.Proofs.Machine.Action

/-!
What happens while a task runs.

The trace of a turn lists the statements that it executes, each with the machine just before it.
Between two statements a task does one of a few things to its machine (`Effect`). Every turn is a
path of such effects and of statements (`account_runFrames`), so what each effect keeps is kept by a
whole turn, and holds at every statement of its trace.
-/

namespace SpriteStage

/-- A statement that is about to be executed. -/
structure Moment where
  machine : Machine
  stmt : Stmt

def Step.machine : Step → Machine
  | .done m | .paused m _ _ | .ended m _ => m

/-! ### Traces -/

def Step.thenTrace {β : Type} (s : Step) (k : Machine → List β) : List β :=
  match s with
  | .done m => k m
  | .paused .. | .ended .. => []

theorem Step.thenTrace_nil {β : Type} (s : Step) : s.thenTrace (fun _ => ([] : List β)) = [] := by
  cases s <;> rfl

namespace Machine

/-- The trace of what follows a computation; nothing follows a failure. -/
def evalTrace {α β : Type} (m : Machine) (x : Eval α) (k : α → Machine → List β) : List β :=
  match x.run.run m.random with
  | (.ok a, random) => k a { m with random }
  | (.error _, _) => []

def passTrace {β : Type} (m : Machine) (self : Self) (head : Head) (run : Machine → List β) :
    List β :=
  m.evalTrace (head.next m.world self.entity) fun next m =>
    match next with
    | none => []
    | some _ => run m

mutual

/-- The trace of a statement: the statement itself, and what it executes of its bodies. -/
def trace (self : Self) (m : Machine) : Stmt → List Moment
  | .act a => [⟨m, .act a⟩]
  | .waitUntil condition syncMouse => [⟨m, .waitUntil condition syncMouse⟩]
  | .repeatTimes times body =>
    ⟨m, .repeatTimes times body⟩ ::
      m.counted.evalTrace (times.evalNumber m.world self.entity "TIMES") fun times m =>
        m.passTrace self (.times (passCount times)) fun m => traceBlock self m body
  | .repeatUntil condition body =>
    ⟨m, .repeatUntil condition body⟩ ::
      m.counted.passTrace self (.untilTrue condition) fun m => traceBlock self m body
  | .forever body =>
    ⟨m, .forever body⟩ :: m.counted.passTrace self .always fun m => traceBlock self m body
  | .branch condition thenBody elseBody =>
    ⟨m, .branch condition thenBody elseBody⟩ ::
      m.counted.evalTrace (condition.eval m.world self.entity) fun v m =>
        if v.toBool then traceBlock self m thenBody else traceBlock self m elseBody

def traceBlock (self : Self) (m : Machine) : List Stmt → List Moment
  | [] => []
  | s :: rest => trace self m s ++ (exec self m s).thenTrace fun m => traceBlock self m rest

end

/-- The trace of a frame. A glide, a bubble and a condition go on with a statement that has been
executed already. -/
def frameTrace (self : Self) (m : Machine) : Frame → List Moment
  | .block rest => traceBlock self m rest
  | .loop head body =>
    if endsInYield body then m.passTrace self head fun m => traceBlock self m body else []
  | .again head body => m.passTrace self head fun m => traceBlock self m body
  | .glide .. | .unsay .. | .check .. => []

def framesTrace (self : Self) (m : Machine) : List Frame → List Moment
  | [] => []
  | f :: rest => frameTrace self m f ++ (runFrame self m f).thenTrace (framesTrace self · rest)

def pollTrace (m : Machine) (id : TaskId) : List Moment :=
  match m.task? id with
  | none => []
  | some t =>
    if m.isStopped t.token then []
    else framesTrace ⟨id, t.entity⟩ (m.setTask id ({ · with state := .running })) t.frames

/-! ### Paths -/

/-- What a task does to its machine at once, apart from counting its statements. -/
inductive Effect (self : Self) : Machine → Machine → Prop where
  | draw (m : Machine) (random : SplitMix) : Effect self m { m with random }
  | act (m : Machine) (a : Action) (world : World) (sequel : Sequel) (random : SplitMix)
      (h : (a.run m.world self.entity).run.run m.random = (.ok (world, sequel), random)) :
      Effect self m { m with random, world }
  | glide (m : Machine) (way : Stage.Glide Float) (share : Float) (world : World)
      (h : m.world.glideTo self.entity way share = .ok world) : Effect self m { m with world }
  | unsay (m : Machine) (kind : SpeechKind) (seq : Nat) (world : World)
      (h : m.world.clearSpeech self.entity kind seq = .ok world) : Effect self m { m with world }
  | broadcast (m : Machine) (message : String) : Effect self m (m.broadcast message self.entity)
  | request (m : Machine) :
      Effect self m
        { m with world := m.world.requestMouse.2.notify (.mousePositionRequest self.entity) }
  | closeRequest (m : Machine) (ticket : Nat) :
      Effect self m { m with world := m.world.closeRequest ticket }
  | stopOthers (m : Machine) : Effect self m (m.stopOthers self.entity self.task)

/-- Effects and statements one after the other. No statement on a path ends the run. -/
inductive Path (self : Self) : Machine → List Moment → Machine → Prop where
  | refl (m : Machine) : Path self m [] m
  | effect {m l n : Machine} {ms : List Moment} (h : Effect self m l) (rest : Path self l ms n) :
      Path self m ms n
  | stmt {m n : Machine} {ms : List Moment} (s : Stmt) (h : s ≠ .act (.stop .all))
      (rest : Path self m.counted ms n) : Path self m (⟨m, s⟩ :: ms) n

namespace Path

variable {self : Self} {m l n : Machine} {ms ks : List Moment}

theorem trans (h : Path self m ms l) (rest : Path self l ks n) : Path self m (ms ++ ks) n := by
  induction h with
  | refl => exact rest
  | effect he _ ih => exact .effect he (ih rest)
  | stmt s hs _ ih => exact .stmt s hs (ih rest)

theorem single (h : Effect self m n) : Path self m [] n :=
  .effect h (.refl n)

theorem to_moment (h : Path self m ms n) {k : Moment} (hk : k ∈ ms) :
    ∃ ks, Path self m ks k.machine := by
  induction h with
  | refl => cases hk
  | effect he _ ih =>
    obtain ⟨ks, hks⟩ := ih hk
    exact ⟨ks, .effect he hks⟩
  | @stmt m n ms s hs _ ih =>
    rcases List.mem_cons.1 hk with rfl | hk
    · exact ⟨[], .refl m⟩
    · obtain ⟨ks, hks⟩ := ih hk
      exact ⟨⟨m, s⟩ :: ks, .stmt s hs hks⟩

theorem stmt_ne_stopAll (h : Path self m ms n) {k : Moment} (hk : k ∈ ms) :
    k.stmt ≠ .act (.stop .all) := by
  induction h with
  | refl => cases hk
  | effect _ _ ih => exact ih hk
  | stmt s hs _ ih =>
    rcases List.mem_cons.1 hk with rfl | hk
    · exact hs
    · exact ih hk

end Path

/-! ### Accounts -/

/-- How a task came, from a machine and by a trace, to a step. Only the last statement can have
stopped the task itself. -/
inductive Account (self : Self) (m : Machine) : List Moment → Step → Prop where
  | done {ms : List Moment} {n : Machine} (h : Path self m ms n) : Account self m ms (.done n)
  | paused {ms : List Moment} {n : Machine} (h : Path self m ms n) (pause : Pause)
      (frames : List Frame) : Account self m ms (.paused n pause frames)
  | ended {ms : List Moment} {n : Machine} (h : Path self m ms n) (ending : Ending ScriptError) :
      Account self m ms (.ended n ending)
  | stoppedAll {ms : List Moment} {n : Machine} (h : Path self m ms n) :
      Account self m (ms ++ [⟨n, .act (.stop .all)⟩]) (.ended n.counted.stopAll .cancelled)
  | stoppedSprite {ms : List Moment} {n : Machine} (h : Path self m ms n) :
      Account self m (ms ++ [⟨n, .act (.stop .thisSprite)⟩])
        (.ended (n.counted.stopEntity self.entity) .cancelled)

namespace Account

variable {self : Self} {m l : Machine} {ms ks : List Moment} {s : Step}

theorem after (h : Path self m ms l) (hs : Account self l ks s) : Account self m (ms ++ ks) s := by
  cases hs with
  | done hp => exact .done (h.trans hp)
  | paused hp pause frames => exact .paused (h.trans hp) pause frames
  | ended hp ending => exact .ended (h.trans hp) ending
  | stoppedAll hp =>
    rw [← List.append_assoc]
    exact .stoppedAll (h.trans hp)
  | stoppedSprite hp =>
    rw [← List.append_assoc]
    exact .stoppedSprite (h.trans hp)

theorem afterEffect (h : Effect self m l) (hs : Account self l ks s) : Account self m ks s :=
  after (.single h) hs

theorem afterStmt {t : Stmt} (h : t ≠ .act (.stop .all)) (hs : Account self m.counted ks s) :
    Account self m (⟨m, t⟩ :: ks) s :=
  after (.stmt t h (.refl m.counted)) hs

theorem andThen (h : Account self m ms s) {k : Machine → Step} {kt : Machine → List Moment}
    (hk : ∀ n, Account self n (kt n) (k n)) (later : List Frame) :
    Account self m (ms ++ s.thenTrace kt) (s.andThen k later) := by
  cases h with
  | done hp => exact after hp (hk _)
  | paused hp pause frames =>
    rw [Step.thenTrace, List.append_nil]
    exact .paused hp pause (frames ++ later)
  | ended hp ending =>
    rw [Step.thenTrace, List.append_nil]
    exact .ended hp ending
  | stoppedAll hp =>
    rw [Step.thenTrace, List.append_nil]
    exact .stoppedAll hp
  | stoppedSprite hp =>
    rw [Step.thenTrace, List.append_nil]
    exact .stoppedSprite hp

theorem andThen_silent (h : Account self m ms s) {k : Machine → Step}
    (hk : ∀ n, Account self n [] (k n)) (later : List Frame) :
    Account self m ms (s.andThen k later) := by
  have ha := h.andThen hk later
  rwa [s.thenTrace_nil, List.append_nil] at ha

theorem eval {α : Type} {x : Eval α} {k : α → Machine → Step} {kt : α → Machine → List Moment}
    (hk : ∀ a n, Account self n (kt a n) (k a n)) :
    Account self m (m.evalTrace x kt) (m.eval x k) := by
  unfold Machine.eval evalTrace
  cases x.run.run m.random with
  | mk result random =>
    cases result with
    | ok a => exact afterEffect (.draw m random) (hk a _)
    | error e => exact .ended (.single (.draw m random)) (.failed e)

end Account

/-! ### The accounts of statements -/

section Statements

variable {self : Self} {m : Machine}

theorem evalTrace_nil {α β : Type} (m : Machine) (x : Eval α) :
    m.evalTrace x (fun _ _ => ([] : List β)) = [] := by
  unfold evalTrace
  split <;> rfl

theorem account_ofExcept {α : Type} (m : Machine) {x : Except ScriptError α} {k : α → Machine → Step}
    (hk : ∀ a, x = .ok a → Account self m [] (k a m)) :
    Account self m [] (m.eval (.ofExcept x) k) := by
  cases x with
  | ok a => exact hk a rfl
  | error e => exact .ended (.refl m) (.failed e)

theorem account_pauseFor (m : Machine) (span : Span) (frames : List Frame) :
    Account self m [] (m.pauseFor span frames) :=
  .paused (.refl m) _ frames

theorem account_askMouse (m : Machine) : Account self m [] (m.askMouse self) := by
  have hr : Effect self m
      { m with world := m.world.requestMouse.2.notify (.mousePositionRequest self.entity) } :=
    .request m
  unfold askMouse
  split
  next ticket world hw =>
    rw [hw] at hr
    split
    · exact .done (.effect hr (.single (.closeRequest _ ticket)))
    · exact .paused (.single hr) _ _

theorem account_check (m : Machine) (condition : Expr) (syncMouse : Bool) :
    Account self m [] (m.check self condition syncMouse) := by
  unfold check
  rw [← evalTrace_nil m (condition.eval m.world self.entity)]
  refine .eval fun v n => ?_
  split
  · exact .done (.refl n)
  · exact account_pauseFor n _ _

theorem account_waitUntil (m : Machine) (condition : Expr) (syncMouse : Bool) :
    Account self m [] (m.waitUntil self condition syncMouse) := by
  unfold waitUntil
  split
  · exact (account_askMouse m).andThen_silent (fun n => account_check n condition syncMouse) _
  · exact account_check m condition syncMouse

theorem account_follow (m : Machine) {sequel : Sequel} (h : ∀ scope, sequel ≠ .stop scope) :
    Account self m [] (m.follow self sequel) := by
  cases sequel with
  | proceed => exact .done (.refl m)
  | sleep span => exact account_pauseFor m span []
  | glide way secs => exact account_pauseFor m _ _
  | unsay kind seq span => exact account_pauseFor m span _
  | broadcast message span =>
    cases span with
    | none => exact .done (.single (.broadcast m message))
    | some span => exact .afterEffect (.broadcast m message) (account_pauseFor _ span [])
  | askMouse => exact account_askMouse m
  | stop scope => exact absurd rfl (h scope)

theorem account_act (m : Machine) {a : Action} (h : ∀ scope, a ≠ .stop scope) :
    Account self m [] (m.act self a) := by
  rw [act_eq, eval]
  split
  next result random hr =>
    obtain ⟨world, sequel⟩ := result
    refine .afterEffect (.act m a world sequel random hr) (account_follow _ ?_)
    rintro scope rfl
    cases (Action.outcome hr).leadsTo
    exact h scope rfl
  next e random hr => exact .ended (.single (.draw m random)) (.failed e)

theorem account_stop (m : Machine) (scope : StopScope) :
    Account self m [⟨m, .act (.stop scope)⟩] (exec self m (.act (.stop scope))) := by
  show Account self m _ (m.counted.stopScope self scope)
  cases scope with
  | all => exact .stoppedAll (.refl m)
  | thisScript => exact .ended (.stmt (.act (.stop .thisScript)) nofun (.refl m.counted)) .completed
  | thisSprite => exact .stoppedSprite (.refl m)
  | otherScriptsInSprite =>
    exact .done (.stmt (.act (.stop .otherScriptsInSprite)) nofun (.single (.stopOthers m.counted)))

theorem account_pass (m : Machine) (head : Head) (body : List Stmt) {run : Machine → Step}
    {runTrace : Machine → List Moment} (h : ∀ n, Account self n (runTrace n) (run n)) :
    Account self m (m.passTrace self head runTrace) (m.pass self head body run) := by
  refine .eval fun next n => ?_
  cases next with
  | none => exact .done (.refl n)
  | some head => exact (h n).andThen_silent (fun l => .paused (.refl l) _ _) _

end Statements

mutual

theorem account_exec (self : Self) (m : Machine) :
    (s : Stmt) → Account self m (trace self m s) (exec self m s)
  | .act a => by
    rw [trace]
    by_cases h : ∃ scope, a = .stop scope
    · obtain ⟨scope, rfl⟩ := h
      exact account_stop m scope
    · have hne : ∀ scope, a ≠ .stop scope := fun scope ha => h ⟨scope, ha⟩
      rw [exec]
      exact .afterStmt (fun hs => hne .all (Stmt.act.inj hs)) (account_act m.counted hne)
  | .waitUntil condition syncMouse => by
    rw [trace, exec]
    exact .afterStmt nofun (account_waitUntil m.counted condition syncMouse)
  | .repeatTimes times body => by
    rw [trace, exec]
    exact .afterStmt nofun (.eval fun times n =>
      account_pass n _ body fun l => account_execBlock self l body)
  | .repeatUntil condition body => by
    rw [trace, exec]
    exact .afterStmt nofun (account_pass _ _ body fun l => account_execBlock self l body)
  | .forever body => by
    rw [trace, exec]
    exact .afterStmt nofun (account_pass _ _ body fun l => account_execBlock self l body)
  | .branch condition thenBody elseBody => by
    rw [trace, exec]
    refine .afterStmt nofun (.eval fun v n => ?_)
    split
    · exact account_execBlock self n thenBody
    · exact account_execBlock self n elseBody

theorem account_execBlock (self : Self) (m : Machine) :
    (body : List Stmt) → Account self m (traceBlock self m body) (execBlock self m body)
  | [] => by
    rw [traceBlock, execBlock]
    exact .done (.refl m)
  | s :: rest => by
    rw [traceBlock, execBlock]
    exact (account_exec self m s).andThen (fun n => account_execBlock self n rest) [.block rest]

end

/-! ### The accounts of turns -/

theorem account_runFrame (self : Self) (m : Machine) (f : Frame) :
    Account self m (frameTrace self m f) (runFrame self m f) := by
  cases f with
  | block rest => exact account_execBlock self m rest
  | loop head body =>
    rw [frameTrace, runFrame]
    by_cases h : endsInYield body = true
    · rw [if_pos h, if_pos h]
      exact account_pass m head body fun l => account_execBlock self l body
    · rw [if_neg h, if_neg h]
      exact .paused (.refl m) _ _
  | again head body => exact account_pass m head body fun l => account_execBlock self l body
  | glide way started secs =>
    rw [frameTrace, runFrame_glide_eq]
    refine account_ofExcept m fun world hw => .afterEffect (.glide m way _ world hw) ?_
    dsimp only
    split
    · exact .done (.refl _)
    · exact account_pauseFor _ _ _
  | unsay kind seq =>
    rw [frameTrace, runFrame_unsay_eq]
    refine account_ofExcept m fun world hw => ?_
    exact .done (.single (.unsay m kind seq world hw))
  | check condition syncMouse => exact account_check m condition syncMouse

theorem account_runFrames (self : Self) (m : Machine) (frames : List Frame) :
    Account self m (framesTrace self m frames) (runFrames self m frames) := by
  induction frames generalizing m with
  | nil => exact .ended (.refl m) .completed
  | cons f rest ih => exact (account_runFrame self m f).andThen ih rest

/-! ### Polls -/

theorem mem_of_task? {m : Machine} {id : TaskId} {t : Task} (h : m.task? id = some t) :
    t ∈ m.tasks ∧ t.id = id :=
  ⟨List.mem_of_find?_eq_some h, by simpa using List.find?_some h⟩

/-- How the task's turn went, by which trace, and where it led. -/
inductive Polled (m : Machine) (id : TaskId) : List Moment → Machine → Prop where
  | absent (h : m.task? id = none) : Polled m id [] m
  | stopped {t : Task} (h : m.task? id = some t) (hs : m.isStopped t.token = true) :
      Polled m id [] (m.finish t .cancelled)
  | paused {t : Task} {ms : List Moment} {n : Machine} (h : m.task? id = some t)
      (hs : m.isStopped t.token = false)
      (hp : Path ⟨id, t.entity⟩ (m.setTask id ({ · with state := .running })) ms n) (pause : Pause)
      (frames : List Frame) : Polled m id ms (n.suspend id pause frames)
  | ended {t : Task} {ms : List Moment} {n : Machine} (h : m.task? id = some t)
      (hs : m.isStopped t.token = false)
      (hp : Path ⟨id, t.entity⟩ (m.setTask id ({ · with state := .running })) ms n)
      (ending : Ending ScriptError) : Polled m id ms (n.finish t ending)
  | stoppedAll {t : Task} {ms : List Moment} {n : Machine} (h : m.task? id = some t)
      (hs : m.isStopped t.token = false)
      (hp : Path ⟨id, t.entity⟩ (m.setTask id ({ · with state := .running })) ms n) :
      Polled m id (ms ++ [⟨n, .act (.stop .all)⟩]) (n.counted.stopAll.finish t .cancelled)
  | stoppedSprite {t : Task} {ms : List Moment} {n : Machine} (h : m.task? id = some t)
      (hs : m.isStopped t.token = false)
      (hp : Path ⟨id, t.entity⟩ (m.setTask id ({ · with state := .running })) ms n) :
      Polled m id (ms ++ [⟨n, .act (.stop .thisSprite)⟩])
        ((n.counted.stopEntity t.entity).finish t .cancelled)

/-- A task that executes a statement has come to it by a path, and had not been stopped before. -/
theorem Polled.to_moment {m n : Machine} {id : TaskId} {ms : List Moment} (h : Polled m id ms n)
    {k : Moment} (hk : k ∈ ms) :
    ∃ t ks, m.task? id = some t ∧ m.isStopped t.token = false ∧
      Path ⟨id, t.entity⟩ (m.setTask id ({ · with state := .running })) ks k.machine := by
  cases h with
  | absent => cases hk
  | stopped => cases hk
  | paused ht hs hp =>
    obtain ⟨ks, hks⟩ := hp.to_moment hk
    exact ⟨_, ks, ht, hs, hks⟩
  | ended ht hs hp =>
    obtain ⟨ks, hks⟩ := hp.to_moment hk
    exact ⟨_, ks, ht, hs, hks⟩
  | stoppedAll ht hs hp | stoppedSprite ht hs hp =>
    rcases List.mem_append.1 hk with hk | hk
    · obtain ⟨ks, hks⟩ := hp.to_moment hk
      exact ⟨_, ks, ht, hs, hks⟩
    · cases List.mem_singleton.1 hk
      exact ⟨_, _, ht, hs, hp⟩

theorem polled_poll (m : Machine) (id : TaskId) : Polled m id (m.pollTrace id) (m.poll id) := by
  cases ht : m.task? id with
  | none =>
    simp only [pollTrace, poll, ht]
    exact .absent ht
  | some t =>
    cases hs : m.isStopped t.token with
    | true =>
      simp only [pollTrace, poll, ht, hs, if_true]
      exact .stopped ht hs
    | false =>
      have ha := account_runFrames ⟨id, t.entity⟩ (m.setTask id ({ · with state := .running })) t.frames
      simp only [pollTrace, poll, ht, hs, Bool.false_eq_true, if_false]
      generalize framesTrace _ _ _ = ms at ha ⊢
      generalize runFrames _ _ _ = step at ha ⊢
      cases ha with
      | done hp => exact .ended ht hs hp .completed
      | paused hp pause frames => exact .paused ht hs hp pause frames
      | ended hp ending => exact .ended ht hs hp ending
      | stoppedAll hp => exact .stoppedAll ht hs hp
      | stoppedSprite hp => exact .stoppedSprite ht hs hp

end Machine

end SpriteStage
