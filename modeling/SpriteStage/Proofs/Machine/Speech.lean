import SpriteStage.Proofs.Machine.Halt
import SpriteStage.Proofs.Machine.Turns
import SpriteStage.Proofs.World.Speech

/-!
Who shows a bubble, and who takes it away.

The calls about bubbles in a run are those of the statements and the frames that its tasks go
through. A task takes only those bubbles away that it has shown itself (`Sound.voices_move`), so a
bubble whose time is over never takes the place of a newer one.
-/

namespace SpriteStage

open World

/-! ### The calls of a turn -/

/-- What is said, and for how long. -/
def Action.saying (w : World) (id : EntityId) (text : Expr) (secs : Option Expr) :
    Eval (String × Option Float) := do
  let text ← text.eval w id
  let secs ← secs.mapM (·.evalNumber w id "SECS")
  return (text.toText, secs)

theorem Action.run_speech (w : World) (id : EntityId) (kind : SpeechKind) (text : Expr)
    (secs : Option Expr) :
    (Action.speech kind text secs).run w id = do
      let (words, secs) ← saying w id text secs
      let (seq, w) ← Eval.ofExcept (w.say id kind words secs)
      return (w, (secs.map fun secs => .unsay kind seq (.ofWait secs)).getD .proceed) := by
  cases secs <;> simp [Action.run, saying]

/-- The call by which a bubble is shown, if all goes well. -/
def Machine.sayTrace (self : Self) (m : Machine) (kind : SpeechKind) (text : Expr)
    (secs : Option Expr) : List SpeechCall :=
  m.evalTrace (Action.saying m.world self.entity text secs) fun (words, secs) _ =>
    match m.world.say self.entity kind words secs with
    | .ok (seq, _) => [.said self kind words (secs.map wholeMillis) seq]
    | .error _ => []

def Moment.said (self : Self) (k : Moment) : List SpeechCall :=
  match k.stmt with
  | .act (.speech kind text secs) => k.machine.sayTrace self kind text secs
  | _ => []

def sayings (self : Self) (ms : List Moment) : List SpeechCall :=
  ms.flatMap (Moment.said self)

theorem sayings_append (self : Self) (ms ks : List Moment) :
    sayings self (ms ++ ks) = sayings self ms ++ sayings self ks :=
  List.flatMap_append

theorem sayings_thenTrace (self : Self) (s : Step) (k : Machine → List Moment) :
    sayings self (s.thenTrace k) = s.thenTrace fun n => sayings self (k n) := by
  cases s <;> rfl

namespace Machine

theorem sayings_evalTrace {α : Type} (self : Self) (m : Machine) (x : Eval α)
    (k : α → Machine → List Moment) :
    sayings self (m.evalTrace x k) = m.evalTrace x fun a n => sayings self (k a n) := by
  unfold evalTrace
  split <;> rfl

theorem sayings_passTrace (self : Self) (m : Machine) (head : Head) (run : Machine → List Moment) :
    sayings self (m.passTrace self head run) =
      m.passTrace self head fun n => sayings self (run n) := by
  unfold passTrace
  rw [sayings_evalTrace]
  congr 1
  funext next n
  cases next <;> rfl

/-- The calls of a frame. -/
def frameSpeech (self : Self) (m : Machine) : Frame → List SpeechCall
  | .unsay kind seq =>
    match m.world.clearSpeech self.entity kind seq with
    | .ok world => [.cleared self kind seq (m.world.renewed world self.entity)]
    | .error _ => []
  | f => sayings self (frameTrace self m f)

def framesSpeech (self : Self) (m : Machine) : List Frame → List SpeechCall
  | [] => []
  | f :: rest => frameSpeech self m f ++ (runFrame self m f).thenTrace (framesSpeech self · rest)

def pollSpeech (m : Machine) (id : TaskId) : List SpeechCall :=
  match m.task? id with
  | none => []
  | some t =>
    if m.isStopped t.token then []
    else framesSpeech ⟨id, t.entity⟩ (m.setTask id ({ · with state := .running })) t.frames

def moveSpeech (m : Machine) : Move → List SpeechCall
  | .poll id => if id ∈ m.ready then (m.dequeue id).pollSpeech id else []
  | _ => []

/-- The calls about bubbles while the moves are made. -/
def speechAlong (m : Machine) : List Move → List SpeechCall
  | [] => []
  | move :: rest => m.moveSpeech move ++ (m.move move).speechAlong rest

/-! ### Steps -/

/-- The bubbles that the frames are to take away are all shown by the task itself. -/
def Backed (self : Self) (log : List SpeechCall) (frames : List Frame) : Prop :=
  ∀ kind seq, .unsay kind seq ∈ frames → ∃ text millis, .said self kind text millis seq ∈ log

section Backed

variable {self : Self} {log : List SpeechCall} {frames : List Frame}

theorem Backed.more (h : Backed self log frames) (more : List SpeechCall) :
    Backed self (log ++ more) frames := by
  intro kind seq hmem
  obtain ⟨text, millis, hsaid⟩ := h kind seq hmem
  exact ⟨text, millis, List.mem_append_left more hsaid⟩

theorem Backed.append {rest : List Frame} (h : Backed self log frames) (h' : Backed self log rest) :
    Backed self log (frames ++ rest) :=
  fun kind seq hmem => (List.mem_append.1 hmem).elim (h kind seq) (h' kind seq)

theorem backed_nil : Backed self log [] :=
  nofun

theorem backed_singleton {f : Frame} (h : ∀ kind seq, f ≠ .unsay kind seq) : Backed self log [f] :=
  fun kind seq hmem => absurd (List.mem_singleton.1 hmem).symm (h kind seq)

end Backed

/-- The log holds all calls up to the step, and what is left to do is backed by it. -/
def Voiced (start : World) (self : Self) (log : List SpeechCall) : Step → Prop
  | .done n => start.Logged log n.world ∧ n.world.running = true
  | .paused n _ frames => start.Logged log n.world ∧ Backed self log frames
  | .ended n _ => start.Logged log n.world

section Steps

variable {start : World} {self : Self} {log : List SpeechCall} {m : Machine}

theorem Voiced.andThen {s : Step} (h : Voiced start self log s) {k : Machine → Step}
    {kt : Machine → List SpeechCall} {later : List Frame} (hlater : Backed self log later)
    (hk : ∀ n, start.Logged log n.world → n.world.running = true →
      Voiced start self (log ++ kt n) (k n)) :
    Voiced start self (log ++ s.thenTrace kt) (s.andThen k later) := by
  cases s with
  | done n => exact hk n h.1 h.2
  | paused n pause frames =>
    rw [Step.thenTrace, List.append_nil]
    exact ⟨h.1, h.2.append hlater⟩
  | ended n ending =>
    rw [Step.thenTrace, List.append_nil]
    exact h

theorem Voiced.andThen_silent {s : Step} (h : Voiced start self log s) {k : Machine → Step}
    {later : List Frame} (hlater : Backed self log later)
    (hk : ∀ n, start.Logged log n.world → n.world.running = true → Voiced start self log (k n)) :
    Voiced start self log (s.andThen k later) := by
  have hv : Voiced start self (log ++ s.thenTrace fun _ => []) (s.andThen k later) := by
    refine h.andThen hlater fun n hn hr => ?_
    rw [List.append_nil]
    exact hk n hn hr
  rwa [s.thenTrace_nil, List.append_nil] at hv

theorem voiced_eval {α : Type} {x : Eval α} {k : α → Machine → Step}
    {kt : α → Machine → List SpeechCall} (h : start.Logged log m.world)
    (hk : ∀ a n, n.world = m.world → Voiced start self (log ++ kt a n) (k a n)) :
    Voiced start self (log ++ m.evalTrace x kt) (m.eval x k) := by
  unfold eval evalTrace
  cases x.run.run m.random with
  | mk result random =>
    cases result with
    | ok a => exact hk a _ rfl
    | error e =>
      rw [List.append_nil]
      exact h

theorem voiced_eval_silent {α : Type} {x : Eval α} {k : α → Machine → Step}
    (h : start.Logged log m.world)
    (hk : ∀ a n, n.world = m.world → Voiced start self log (k a n)) :
    Voiced start self log (m.eval x k) := by
  have hv : Voiced start self (log ++ m.evalTrace x fun _ _ => []) (m.eval x k) := by
    refine voiced_eval h fun a n hw => ?_
    rw [List.append_nil]
    exact hk a n hw
  rwa [evalTrace_nil, List.append_nil] at hv

theorem voiced_ofExcept {α : Type} {x : Except ScriptError α} {k : α → Machine → Step}
    (h : start.Logged log m.world) (hk : ∀ a, x = .ok a → Voiced start self log (k a m)) :
    Voiced start self log (m.eval (.ofExcept x) k) := by
  cases x with
  | ok a => exact hk a rfl
  | error e => exact h

theorem voiced_askMouse (h : start.Logged log m.world) (hr : m.world.running = true) :
    Voiced start self log (m.askMouse self) := by
  have hopen : m.world.Mute m.world.requestMouse.2 := .of_eq rfl rfl
  have hrequest : m.world.Mute
      (m.world.requestMouse.2.notify (.mousePositionRequest self.entity)) :=
    hopen.trans (mute_notify _ rfl)
  unfold askMouse
  dsimp only
  split
  · exact ⟨(h.mute hrequest).mute (.of_eq rfl rfl), hr⟩
  · exact ⟨h.mute hrequest, backed_nil⟩

theorem voiced_check (m : Machine) (h : start.Logged log m.world) (hr : m.world.running = true)
    (condition : Expr) (syncMouse : Bool) :
    Voiced start self log (m.check self condition syncMouse) := by
  refine voiced_eval_silent h fun v n hw => ?_
  rw [← hw] at h hr
  split
  · exact ⟨h, hr⟩
  · exact ⟨h, backed_singleton (by simp)⟩

theorem voiced_waitUntil (m : Machine) (h : start.Logged log m.world) (hr : m.world.running = true)
    (condition : Expr) (syncMouse : Bool) :
    Voiced start self log (m.waitUntil self condition syncMouse) := by
  unfold waitUntil
  split
  · exact (voiced_askMouse h hr).andThen_silent (backed_singleton (by simp)) fun n hn hr =>
      voiced_check n hn hr condition syncMouse
  · exact voiced_check m h hr condition syncMouse

theorem voiced_stopScope (h : start.Logged log m.world) (hr : m.world.running = true)
    (scope : StopScope) : Voiced start self log (m.stopScope self scope) := by
  cases scope with
  | thisScript => exact h
  | all =>
    show start.Logged log m.stopAll.world
    rw [world_stopAll]
    have hhalt : m.world.Mute m.world.halt := .of_eq rfl rfl
    exact (h.mute hhalt).mute (mute_emit _ rfl)
  | thisSprite => exact h.mute (edited_stopEntity m self.entity).mute
  | otherScriptsInSprite =>
    have hedited : m.world.Edited false true _ := edited_stopOthers m self.entity self.task
    exact ⟨h.mute hedited.mute, hedited.acted.running.trans hr⟩

theorem voiced_follow (h : start.Logged log m.world) (hr : m.world.running = true)
    {sequel : Sequel} (hs : ∀ kind seq span, sequel ≠ .unsay kind seq span) :
    Voiced start self log (m.follow self sequel) := by
  cases sequel with
  | proceed => exact ⟨h, hr⟩
  | sleep span => exact ⟨h, backed_nil⟩
  | glide way secs => exact ⟨h, backed_singleton (by simp)⟩
  | unsay kind seq span => exact absurd rfl (hs kind seq span)
  | broadcast message span =>
    have hedited : m.world.Edited false false _ := edited_broadcast m message self.entity
    cases span with
    | none => exact ⟨h.mute hedited.mute, hedited.acted.running.trans hr⟩
    | some span => exact ⟨h.mute hedited.mute, backed_nil⟩
  | askMouse => exact voiced_askMouse h hr
  | stop scope => exact voiced_stopScope h hr scope

theorem voiced_act (m : Machine) (h : start.Logged log m.world) (hr : m.world.running = true)
    {a : Action} (ha : a.speaks = false) : Voiced start self log (m.act self a) := by
  rw [act_eq, eval]
  split
  next result random hrun =>
    obtain ⟨world, sequel⟩ := result
    have ho := Action.outcome hrun
    have hedited : m.world.Edited false false world := ha ▸ ho.edited
    refine voiced_follow (h.mute hedited.mute) (hedited.acted.running.trans hr) ?_
    rintro kind seq span rfl
    cases ho.leadsTo
    cases ha
  next => exact h

theorem voiced_speech (m : Machine) (h : start.Logged log m.world) (hr : m.world.running = true)
    (kind : SpeechKind) (text : Expr) (secs : Option Expr) :
    Voiced start self (log ++ sayTrace self m kind text secs)
      (m.act self (.speech kind text secs)) := by
  rw [act_eq, Action.run_speech, eval_bind]
  refine voiced_eval h fun (words, secs) n hw => ?_
  rw [eval_bind]
  dsimp only
  cases hsay : m.world.say self.entity kind words secs with
  | error e =>
    -- Nothing is said, and the log has no call.
    rw [List.append_nil]
    show start.Logged log n.world
    exact hw ▸ h
  | ok result =>
    obtain ⟨seq, world⟩ := result
    have hsaid := h.said hr self hsay
    cases secs with
    | none => exact ⟨hsaid, ((m.world.meets_say ..).of_ok hsay).acted.running.trans hr⟩
    | some secs =>
      refine ⟨hsaid, fun kind' seq' hmem => ?_⟩
      cases List.mem_singleton.1 hmem
      exact ⟨words, _, List.mem_append_right log List.mem_cons_self⟩

theorem voiced_pass (m : Machine) (h : start.Logged log m.world) (hr : m.world.running = true)
    (head : Head) (body : List Stmt) {run : Machine → Step} {calls : Machine → List SpeechCall}
    (hrun : ∀ n, start.Logged log n.world → n.world.running = true →
      Voiced start self (log ++ calls n) (run n)) :
    Voiced start self (log ++ m.passTrace self head calls) (m.pass self head body run) := by
  refine voiced_eval h fun next n hw => ?_
  rw [← hw] at h hr
  cases next with
  | none =>
    rw [List.append_nil]
    exact ⟨h, hr⟩
  | some head =>
    refine (hrun n h hr).andThen_silent (backed_singleton (by simp)) fun l hl _ => ?_
    exact ⟨hl, backed_singleton (by simp)⟩

theorem voiced_statement (m : Machine) (h : start.Logged log m.world)
    (hr : m.world.running = true) (a : Action) :
    Voiced start self (log ++ sayings self [⟨m, .act a⟩]) (m.counted.act self a) := by
  cases ha : a.speaks with
  | true =>
    cases a with
    | speech kind text secs =>
      have hcall : sayings self [⟨m, .act (.speech kind text secs)⟩] =
          sayTrace self m.counted kind text secs := List.append_nil _
      rw [hcall]
      exact voiced_speech m.counted h hr kind text secs
    | _ => cases ha
  | false =>
    have hnone : sayings self [⟨m, .act a⟩] = [] := by
      cases a with
      | speech => cases ha
      | _ => rfl
    rw [hnone, List.append_nil]
    exact voiced_act m.counted h hr ha

end Steps

mutual

theorem voiced_exec {start : World} {log : List SpeechCall} (self : Self) (m : Machine)
    (h : start.Logged log m.world) (hr : m.world.running = true) :
    (s : Stmt) → Voiced start self (log ++ sayings self (trace self m s)) (exec self m s)
  | .act a => by
    rw [trace, exec]
    exact voiced_statement m h hr a
  | .waitUntil condition syncMouse => by
    rw [trace, exec, show sayings self [⟨m, .waitUntil condition syncMouse⟩] = [] from rfl,
      List.append_nil]
    exact voiced_waitUntil m.counted h hr condition syncMouse
  | .repeatTimes times body => by
    rw [trace, exec]
    show Voiced start self (log ++ sayings self (m.counted.evalTrace _ _)) _
    rw [sayings_evalTrace]
    refine voiced_eval h fun times n hw => ?_
    rw [sayings_passTrace]
    exact voiced_pass n (hw ▸ h) (hw ▸ hr) _ body fun l hl hr => voiced_execBlock self l hl hr body
  | .repeatUntil condition body => by
    rw [trace, exec]
    show Voiced start self (log ++ sayings self (m.counted.passTrace self _ _)) _
    rw [sayings_passTrace]
    exact voiced_pass m.counted h hr _ body fun l hl hr => voiced_execBlock self l hl hr body
  | .forever body => by
    rw [trace, exec]
    show Voiced start self (log ++ sayings self (m.counted.passTrace self _ _)) _
    rw [sayings_passTrace]
    exact voiced_pass m.counted h hr _ body fun l hl hr => voiced_execBlock self l hl hr body
  | .branch condition thenBody elseBody => by
    rw [trace, exec]
    show Voiced start self (log ++ sayings self (m.counted.evalTrace _ _)) _
    rw [sayings_evalTrace]
    refine voiced_eval h fun v n hw => ?_
    split
    · exact voiced_execBlock self n (hw ▸ h) (hw ▸ hr) thenBody
    · exact voiced_execBlock self n (hw ▸ h) (hw ▸ hr) elseBody

theorem voiced_execBlock {start : World} {log : List SpeechCall} (self : Self) (m : Machine)
    (h : start.Logged log m.world) (hr : m.world.running = true) :
    (body : List Stmt) →
      Voiced start self (log ++ sayings self (traceBlock self m body)) (execBlock self m body)
  | [] => by
    rw [traceBlock, execBlock, sayings, List.flatMap_nil, List.append_nil]
    exact ⟨h, hr⟩
  | s :: rest => by
    rw [traceBlock, execBlock, sayings_append, sayings_thenTrace, ← List.append_assoc]
    exact (voiced_exec self m h hr s).andThen (backed_singleton (by simp)) fun n hn hr =>
      voiced_execBlock self n hn hr rest

end

/-! ### Turns -/

theorem voiced_runFrame {start : World} {self : Self} {log : List SpeechCall} (m : Machine)
    (h : start.Logged log m.world) (hr : m.world.running = true) {f : Frame}
    (hb : Backed self log [f]) :
    Voiced start self (log ++ frameSpeech self m f) (runFrame self m f) := by
  cases f with
  | block rest => exact voiced_execBlock self m h hr rest
  | loop head body =>
    simp only [frameSpeech, frameTrace, runFrame]
    by_cases hends : endsInYield body = true
    · rw [if_pos hends, if_pos hends, sayings_passTrace]
      exact voiced_pass m h hr head body fun l hl hr => voiced_execBlock self l hl hr body
    · rw [if_neg hends, if_neg hends, sayings, List.flatMap_nil, List.append_nil]
      exact ⟨h, backed_singleton (by simp)⟩
  | again head body =>
    simp only [frameSpeech, frameTrace, runFrame, sayings_passTrace]
    exact voiced_pass m h hr head body fun l hl hr => voiced_execBlock self l hl hr body
  | glide way started secs =>
    simp only [frameSpeech, frameTrace, runFrame_glide_eq, sayings, List.flatMap_nil,
      List.append_nil]
    refine voiced_ofExcept h fun world hw => ?_
    have hedited := (m.world.changes_glideTo self.entity way _).of_ok hw
    split
    · exact ⟨h.mute hedited.mute, hedited.acted.running.trans hr⟩
    · exact ⟨h.mute hedited.mute, backed_singleton (by simp)⟩
  | unsay kind seq =>
    rw [frameSpeech, runFrame_unsay_eq]
    cases hc : m.world.clearSpeech self.entity kind seq with
    | error e =>
      rw [List.append_nil]
      exact h
    | ok world =>
      have hcleared := h.cleared hr hc (hb kind seq List.mem_cons_self)
      exact ⟨hcleared, ((m.world.meets_clearSpeech ..).of_ok hc).acted.running.trans hr⟩
  | check condition syncMouse =>
    simp only [frameSpeech, frameTrace, runFrame, sayings, List.flatMap_nil, List.append_nil]
    exact voiced_check m h hr condition syncMouse

theorem voiced_runFrames {start : World} {self : Self} {log : List SpeechCall} (m : Machine)
    (h : start.Logged log m.world) (hr : m.world.running = true) {frames : List Frame}
    (hb : Backed self log frames) :
    Voiced start self (log ++ framesSpeech self m frames) (runFrames self m frames) := by
  induction frames generalizing m log with
  | nil =>
    rw [framesSpeech, List.append_nil]
    exact h
  | cons f rest ih =>
    have hf : Backed self log [f] := fun kind seq hmem =>
      hb kind seq (List.mem_singleton.1 hmem ▸ List.mem_cons_self)
    have hrest : Backed self log rest := fun kind seq hmem =>
      hb kind seq (List.mem_cons_of_mem f hmem)
    rw [framesSpeech, runFrames, ← List.append_assoc]
    refine (voiced_runFrame m h hr hf).andThen (hrest.more _) fun n hn hr => ?_
    exact ih n hn hr (hrest.more _)

/-- The log holds all calls up to now, and backs what the tasks are to do that may still run. -/
structure Voices (start : World) (log : List SpeechCall) (m : Machine) : Prop where
  logged : start.Logged log m.world
  backed : ∀ t ∈ m.tasks, m.isStopped t.token = false → Backed ⟨t.id, t.entity⟩ log t.frames

theorem mute_finish (m : Machine) (t : Task) (ending : Ending ScriptError) :
    m.world.Mute (m.finish t ending).world := by
  cases ending with
  | completed | cancelled => exact .refl m.world
  | failed e =>
    simp only [finish]
    split
    · simp only [reportFailure]
      split
      · exact .refl m.world
      · have hreported : m.world.Mute (m.world.emit (.runtimeError (some t.entity) e.message)) :=
          mute_emit m.world rfl
        exact hreported.trans (.of_eq rfl rfl)
    · exact .refl m.world

namespace Voices

variable {start : World} {log : List SpeechCall} {m n : Machine}

/-- What is kept of a task is still backed. -/
theorem backed_keeps (h : m.Voices start log) (more : List SpeechCall) {u : Task} (hu : u ∈ n.tasks)
    (hs : n.isStopped u.token = false) (hlater : m.tree.Later n.tree) (hk : Keeps u.id m n) :
    Backed ⟨u.id, u.entity⟩ (log ++ more) u.frames := by
  rcases hk.tasks u hu rfl with ⟨t, ht, hleaf, hframes⟩ | ⟨-, body, hbody⟩
  · have hid : t.id = u.id := congrArg Leaf.id hleaf
    have hentity : t.entity = u.entity := congrArg Leaf.entity hleaf
    have htoken : t.token = u.token := congrArg Leaf.token hleaf
    have hlive : m.isStopped t.token = false := by
      refine Bool.eq_false_iff.2 fun hstopped => ?_
      have hstopped' : n.isStopped t.token = true := hlater.stopped t.token hstopped
      rw [htoken, hs] at hstopped'
      cases hstopped'
    have hb := (h.backed t ht hlive).more more
    rwa [hid, hentity, hframes] at hb
  · rw [hbody]
    exact backed_singleton (by simp)

theorem of_mute (h : m.Voices start log) (hw : m.world.Mute n.world) (hlater : m.tree.Later n.tree)
    (hk : ∀ id, Keeps id m n) : n.Voices start log := by
  refine ⟨h.logged.mute hw, fun u hu hs => ?_⟩
  have hb := h.backed_keeps [] hu hs hlater (hk u.id)
  rwa [List.append_nil] at hb

end Voices

section Polls

variable {start : World} {log : List SpeechCall} {m : Machine} {id : TaskId} {t : Task}

theorem Sound.voiced_turn (h : m.Sound) (hv : m.Voices start log) (ht : m.task? id = some t)
    (hs : m.isStopped t.token = false) :
    Voiced start ⟨id, t.entity⟩ (log ++ m.pollSpeech id)
      (runFrames ⟨id, t.entity⟩ (m.setTask id ({ · with state := .running })) t.frames) := by
  obtain ⟨hmem, rfl⟩ := mem_of_task? ht
  have hlive : m.tree.Live t.leaf := ⟨List.mem_map_of_mem hmem, hs⟩
  have hr : m.world.running = true := h.tree.running_of_live hlive
  simp only [pollSpeech, ht, hs, Bool.false_eq_true, if_false]
  exact voiced_runFrames (m.setTask t.id _) hv.logged hr (hv.backed t hmem hs)

/-- A task that hands control back is the one that had its turn. -/
theorem Sound.self_of_suspend {n : Machine} {ms : List Moment} (h : m.Sound)
    (ht : m.task? id = some t) (hs : m.isStopped t.token = false)
    (hp : Path ⟨id, t.entity⟩ (m.setTask id ({ · with state := .running })) ms n) (pause : Pause)
    (frames : List Frame) :
    ∀ u ∈ (n.suspend id pause frames).tasks, u.id = id →
      u.entity = t.entity ∧ u.frames = frames := by
  intro u hu hid
  obtain ⟨hn, hlive⟩ := h.turn_path ht hs hp
  obtain ⟨-, rfl⟩ := mem_of_task? ht
  obtain ⟨v, hv, hvid, rfl⟩ := eq_of_mem_suspend hu hid
  have hleaf : v.leaf = t.leaf := hn.tree.eq_of_id_eq (List.mem_map_of_mem hv) hlive.1 hvid
  exact ⟨congrArg Leaf.entity hleaf, rfl⟩

/-- The log holds all calls up to now, and backs what the task is to do. -/
def VoicesFor (start : World) (id : TaskId) (log : List SpeechCall) (m : Machine) : Prop :=
  start.Logged log m.world ∧
    ∀ t ∈ m.tasks, t.id = id → Backed ⟨t.id, t.entity⟩ log t.frames

theorem voicesFor_finish {n : Machine} (h : start.Logged log n.world) (t : Task)
    (ending : Ending ScriptError) : (n.finish t ending).VoicesFor start t.id log :=
  ⟨h.mute (mute_finish n t ending), fun u hu hid => absurd hid (not_mem_finish n t ending u hu)⟩

theorem Sound.voicesFor_turn (h : m.Sound) (hv : m.Voices start log) (ht : m.task? id = some t)
    (hs : m.isStopped t.token = false) :
    (m.poll id).VoicesFor start id (log ++ m.pollSpeech id) := by
  have hvoiced := h.voiced_turn hv ht hs
  have ha := account_runFrames ⟨id, t.entity⟩ (m.setTask id ({ · with state := .running })) t.frames
  simp only [poll, ht, hs, Bool.false_eq_true, if_false]
  obtain ⟨-, rfl⟩ := mem_of_task? ht
  generalize framesTrace _ _ _ = ms at ha
  generalize runFrames _ _ _ = step at ha hvoiced ⊢
  cases step with
  | done n => exact voicesFor_finish hvoiced.1 t .completed
  | ended n ending => exact voicesFor_finish hvoiced t ending
  | paused n pause frames =>
    obtain ⟨hlogged, hb⟩ := hvoiced
    cases ha with
    | paused hpath =>
      refine ⟨?_, fun u hu hid => ?_⟩
      · obtain ⟨tasks, yielded, waits, he⟩ := suspend_shape n t.id pause frames
        show start.Logged _ (n.suspend t.id pause frames).world
        rw [he]
        exact hlogged
      · obtain ⟨hentity, hframes⟩ := h.self_of_suspend ht hs hpath pause frames u hu hid
        rwa [hid, hentity, hframes]

theorem Sound.voices_poll (h : m.Sound) (hv : m.Voices start log) (id : TaskId) :
    (m.poll id).Voices start (log ++ m.pollSpeech id) := by
  have hp := polled_poll m id
  have hself : (m.poll id).VoicesFor start id (log ++ m.pollSpeech id) := by
    cases ht : m.task? id with
    | none =>
      have habsent : ∀ u ∈ m.tasks, u.id ≠ id := by simpa [task?] using ht
      simp only [poll, pollSpeech, ht, List.append_nil]
      exact ⟨hv.logged, fun u hu hid => absurd hid (habsent u hu)⟩
    | some t =>
      cases hs : m.isStopped t.token with
      | true =>
        simp only [poll, pollSpeech, ht, hs, if_true, List.append_nil]
        exact (mem_of_task? ht).2 ▸ voicesFor_finish hv.logged t .cancelled
      | false => exact h.voicesFor_turn hv ht hs
  -- The others are as before, or they are new and at the beginning.
  refine ⟨hself.1, fun u hu hs => ?_⟩
  by_cases hid : u.id = id
  · exact hself.2 u hu hid
  · exact hv.backed_keeps _ hu hs hp.later (.polled (Ne.symm hid) hp)

end Polls

/-! ### Moves -/

section Moves

variable {start : World} {log : List SpeechCall} {m : Machine}

theorem Moved.mute {n : Machine} {move : Move} (h : Moved m move n) (hl : move.isLoad = false)
    (hp : ∀ id, move ≠ .poll id) : m.world.Mute n.world := by
  have hhalt : m.world.Mute m.world.halt := .of_eq rfl rfl
  cases h with
  | aside _ ha => exact .of_eq ha.entities ha.events
  | spawn _ ha _ ls =>
    rw [world_spawnAll]
    exact .of_eq ha.entities ha.events
  | broadcast name sender =>
    have hedit : m.world.Edited false false _ := edited_broadcast m name sender
    exact hedit.mute
  | load => cases hl
  | start =>
    rw [world_start]
    exact .of_eq rfl rfl
  | stop =>
    rw [world_stopAll]
    exact hhalt.trans (mute_emit _ rfl)
  | close =>
    rw [world_halt]
    exact hhalt
  | poll => exact absurd rfl (hp _)

theorem Sound.voices_move (h : m.Sound) (hv : m.Voices start log) {move : Move}
    (hl : move.isLoad = false) : (m.move move).Voices start (log ++ m.moveSpeech move) := by
  by_cases hpoll : ∃ id, move = .poll id
  · obtain ⟨id, rfl⟩ := hpoll
    simp only [Machine.move, moveSpeech]
    split
    · have hdequeue : (m.dequeue id).Voices start log := ⟨hv.logged, hv.backed⟩
      exact (h.dequeue id).voices_poll hdequeue id
    · rw [List.append_nil]
      exact hv
  · have hother : ∀ id, move ≠ .poll id := fun id he => hpoll ⟨id, he⟩
    have hnone : m.moveSpeech move = [] := by
      cases move with
      | poll id => exact absurd rfl (hother id)
      | _ => rfl
    have hm := moved_move m move
    rw [hnone, List.append_nil]
    exact hv.of_mute (hm.mute hl hother) hm.later fun id => .moved (hother id) hm

theorem Sound.voices_after {moves : List Move} (h : m.Sound) (hv : m.Voices start log)
    (hmoves : ∀ move ∈ moves, move.isLoad = false) :
    (m.after moves).Voices start (log ++ m.speechAlong moves) := by
  induction moves generalizing m log with
  | nil =>
    rw [speechAlong, List.append_nil]
    exact hv
  | cons move rest ih =>
    rw [speechAlong, ← List.append_assoc]
    exact ih (h.move move) (h.voices_move hv (hmoves move List.mem_cons_self)) fun other ho =>
      hmoves other (List.mem_cons_of_mem move ho)

/-- When no run is going on, no task has anything left to take away. -/
theorem Sound.voices_halted (h : m.Sound) (hr : m.world.running = false) : m.Voices m.world [] := by
  refine ⟨.refl m.world, fun t ht hs => ?_⟩
  rw [h.isStopped_of_halted hr ht] at hs
  cases hs

end Moves

/-- Whatever calls about bubbles follow one another, by whomever and with whatever between them, if
everyone takes away only what they have shown themselves, a bubble is taken away if and only if
nothing has changed since it was shown, and at most once, and at every point the host shows the
bubble that was said last, unless it was taken away. The calls of all runs of a machine, until other
entities are loaded, are of this kind. -/
theorem bubbles_follow_calls :
    (∀ (run : Bool) (w : World) (log : List SpeechCall) (w' : World), Spoken run w log w' →
      Owned log → Faithful run w log w') ∧
    ∀ m : Machine, m.Reachable → m.world.running = false →
      ∀ moves, (∀ move ∈ moves, move.isLoad = false) →
        Spoken true m.world (m.speechAlong moves) (m.after moves).world ∧
          Owned (m.speechAlong moves) := by
  refine ⟨fun run w log w' h ho => h.faithful ho, fun m hm hr moves hmoves => ?_⟩
  have hlogged := (hm.sound.voices_after (hm.sound.voices_halted hr) hmoves).logged
  exact ⟨hlogged.spoken, hlogged.owned⟩

namespace Sample

def first : Self := ⟨1, 0⟩
def second : Self := ⟨2, 0⟩

-- The second task speaks before the time of the first bubble is over.
def calls : List SpeechCall :=
  [.said first .say "Hello" (some (wholeMillis 2)) 1,
    .said second .think "Hm" (some (wholeMillis 3)) 2, .cleared first .say 1 false,
    .cleared second .think 2 true]

def talk : EntityProgram :=
  { EntityProgram.empty with
    onStart := some ⟨"a", [.act (.speech .say (.literal (.text "Hello")) none)]⟩
    onClick := [⟨"b", [.act (.speech .think (.literal (.text "Hm")) none)]⟩] }

def talker : Machine :=
  (Machine.new .standard).after [.command (.loadProgram [cat] ⟨[talk]⟩)]

end Sample

theorem bubbles_follow_calls_sample :
    (∃ w, Spoken true Sample.machine.world Sample.calls w ∧
      Faithful true Sample.machine.world Sample.calls w) ∧
    let moves : List Move := [.command .start, .command (.clickEntity 0), .poll 1, .poll 2]
    Sample.talker.speechAlong moves =
        [.said Sample.first .say "Hello" none 1, .said Sample.second .think "Hm" none 2] ∧
      Spoken true Sample.talker.world (Sample.talker.speechAlong moves)
        (Sample.talker.after moves).world := by
  constructor
  · have h₀ := Logged.refl Sample.machine.world
    have h₁ := @Logged.said _ _ _ _ h₀ rfl Sample.first .say "Hello" (some 2) _ rfl
    have h₂ := @Logged.said _ _ _ _ h₁ rfl Sample.second .think "Hm" (some 3) _ rfl
    have h₃ := @Logged.cleared _ _ _ _ h₂ rfl Sample.first .say 1 rfl ⟨_, _, .head _⟩
    have h₄ := @Logged.cleared _ _ _ _ h₃ rfl Sample.second .think 2 rfl ⟨_, _, .tail _ (.head _)⟩
    exact ⟨_, h₄.spoken, bubbles_follow_calls.1 _ _ _ _ h₄.spoken h₄.owned⟩
  · exact ⟨rfl, (bubbles_follow_calls.2 Sample.talker ⟨_, _, rfl⟩ rfl _ (by decide)).1⟩

end Machine

end SpriteStage
