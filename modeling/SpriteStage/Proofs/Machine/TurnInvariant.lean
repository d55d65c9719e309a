import SpriteStage.Machine.Execute
import SpriteStage.Proofs.Machine.Action
import SpriteStage.Proofs.Script.Places

/-!
Invariants of a turn that also tell how it ends.

A path says what a task does to its machine, but not why the task pauses in the end. Here a request
for the mouse is taken together with what comes of it: the task waits for the answer, or it closes
the request at once. What all the rest keeps is then known when the task pauses or ends
(`TurnInvariant.poll`).
-/

namespace SpriteStage.Machine

/-- The machine with a new request for the mouse. -/
def asking (m : Machine) (self : Self) : Machine :=
  { m with world := m.world.requestMouse.2.notify (.mousePositionRequest self.entity) }

/-- The machine with a new request that nobody waits for. -/
def askedInVain (m : Machine) (self : Self) : Machine :=
  { m with world := (m.asking self).world.closeRequest m.world.nextTicket }

/-- While a task runs `P` holds, and when it pauses `Q` does. When it ends, `E` holds. -/
structure TurnInvariant (who : Self) (P : Machine → Prop) (Q : Machine → Pause → Prop)
    (E : Machine → Prop) : Prop where
  counted : ∀ {m}, P m → P m.counted
  edit : ∀ {m world} (random : SplitMix), P m → m.world.Edited true false world →
    P { m with random, world }
  broadcast : ∀ {m} (message : String), P m → P (m.broadcast message who.entity)
  stopOthers : ∀ {m}, P m → P (m.stopOthers who.entity who.task)
  askedInVain : ∀ {m}, P m → P (m.askedInVain who)
  pause : ∀ {m} (pause : Pause), (∀ ticket, pause ≠ .mouse ticket) → P m → Q m pause
  asking : ∀ {m}, P m → Q (m.asking who) (.mouse m.world.nextTicket)
  ended : ∀ {m}, P m → E m
  stopAll : ∀ {m}, P m → E m.stopAll
  stopEntity : ∀ {m}, P m → E (m.stopEntity who.entity)

/-- The step comes to a machine of the kind that it should. -/
def Arrives (P : Machine → Prop) (Q : Machine → Pause → Prop) (E : Machine → Prop) : Step → Prop
  | .done m => P m
  | .paused m pause _ => Q m pause
  | .ended m _ => E m

namespace TurnInvariant

variable {self : Self} {P : Machine → Prop} {Q : Machine → Pause → Prop} {E : Machine → Prop}
  {m : Machine}

theorem draw (h : TurnInvariant self P Q E) (random : SplitMix) (hm : P m) : P { m with random } :=
  h.edit random hm (.refl m.world)

theorem world (h : TurnInvariant self P Q E) (hm : P m) {world : World}
    (he : m.world.Edited true false world) : P { m with world } :=
  h.edit m.random hm he

/-! ### Steps -/

theorem andThen {s : Step} {k : Machine → Step} {later : List Frame} (hs : Arrives P Q E s)
    (hk : ∀ n, P n → Arrives P Q E (k n)) : Arrives P Q E (s.andThen k later) := by
  cases s with
  | done n => exact hk n hs
  | paused | ended => exact hs

theorem eval (h : TurnInvariant self P Q E) {α : Type} (hm : P m) (x : Eval α)
    {k : α → Machine → Step} (hk : ∀ a n, P n → Arrives P Q E (k a n)) :
    Arrives P Q E (m.eval x k) := by
  unfold Machine.eval
  split
  · exact hk _ _ (h.draw _ hm)
  · exact h.ended (h.draw _ hm)

theorem pauseFor (h : TurnInvariant self P Q E) (hm : P m) (span : Span) (frames : List Frame) :
    Arrives P Q E (m.pauseFor span frames) := by
  refine h.pause _ (fun ticket => ?_) hm
  split <;> nofun

theorem askMouse (h : TurnInvariant self P Q E) (hm : P m) : Arrives P Q E (m.askMouse self) := by
  unfold Machine.askMouse
  dsimp only
  split
  · exact h.askedInVain hm
  · exact h.asking hm

theorem check (h : TurnInvariant self P Q E) (hm : P m) (condition : Expr) (syncMouse : Bool) :
    Arrives P Q E (m.check self condition syncMouse) := by
  refine h.eval hm _ fun v n hn => ?_
  split
  · exact hn
  · exact h.pauseFor hn _ _

theorem waitUntil (h : TurnInvariant self P Q E) (hm : P m) (condition : Expr) (syncMouse : Bool) :
    Arrives P Q E (m.waitUntil self condition syncMouse) := by
  unfold Machine.waitUntil
  split
  · exact andThen (h.askMouse hm) fun n hn => h.check hn condition syncMouse
  · exact h.check hm condition syncMouse

theorem stopScope (h : TurnInvariant self P Q E) (hm : P m) (scope : StopScope) :
    Arrives P Q E (m.stopScope self scope) := by
  cases scope with
  | all => exact h.stopAll hm
  | thisScript => exact h.ended hm
  | thisSprite => exact h.stopEntity hm
  | otherScriptsInSprite => exact h.stopOthers hm

theorem follow (h : TurnInvariant self P Q E) (hm : P m) (sequel : Sequel) :
    Arrives P Q E (m.follow self sequel) := by
  cases sequel with
  | proceed => exact hm
  | sleep span => exact h.pauseFor hm span []
  | glide way secs => exact h.pauseFor hm _ _
  | unsay kind seq span => exact h.pauseFor hm span _
  | broadcast message span =>
    cases span with
    | none => exact h.broadcast message hm
    | some span => exact h.pauseFor (h.broadcast message hm) span []
  | askMouse => exact h.askMouse hm
  | stop scope => exact h.stopScope hm scope

theorem act (h : TurnInvariant self P Q E) (hm : P m) (a : Action) :
    Arrives P Q E (m.act self a) := by
  rw [act_eq, Machine.eval]
  split
  next result random hr =>
    exact h.follow (h.edit random hm (Action.outcome hr).edited.speaking) _
  · exact h.ended (h.draw _ hm)

theorem pass (h : TurnInvariant self P Q E) (hm : P m) (head : Head) (body : List Stmt)
    {run : Machine → Step} (hrun : ∀ n, P n → Arrives P Q E (run n)) :
    Arrives P Q E (m.pass self head body run) := by
  refine h.eval hm _ fun next n hn => ?_
  cases next with
  | none => exact hn
  | some head => exact andThen (hrun n hn) fun l hl => h.pause .yield nofun hl

theorem exec (h : TurnInvariant self P Q E) :
    (∀ s m, P m → Arrives P Q E (exec self m s)) ∧
    ∀ body m, P m → Arrives P Q E (execBlock self m body) := by
  refine Stmt.induction (fun a m hm => ?_) (fun condition syncMouse m hm => ?_)
    (fun s body hs hbody m hm => ?_) (fun condition thenBody elseBody ha hb m hm => ?_)
    (fun m hm => ?_) (fun s rest hs hrest m hm => ?_)
  · rw [Machine.exec]
    exact h.act (h.counted hm) a
  · rw [Machine.exec]
    exact h.waitUntil (h.counted hm) condition syncMouse
  · cases s with
    | act | waitUntil | branch => cases hs
    | repeatTimes times body =>
      cases hs
      rw [Machine.exec]
      exact h.eval (h.counted hm) _ fun times n hn => h.pass hn _ body hbody
    | repeatUntil condition body =>
      cases hs
      rw [Machine.exec]
      exact h.pass (h.counted hm) _ body hbody
    | forever body =>
      cases hs
      rw [Machine.exec]
      exact h.pass (h.counted hm) _ body hbody
  · rw [Machine.exec]
    refine h.eval (h.counted hm) _ fun v n hn => ?_
    split
    · exact ha n hn
    · exact hb n hn
  · rw [execBlock]
    exact hm
  · rw [execBlock]
    exact andThen (hs m hm) hrest

/-! ### Turns -/

theorem runFrame (h : TurnInvariant self P Q E) (hm : P m) (f : Frame) :
    Arrives P Q E (runFrame self m f) := by
  cases f with
  | block rest => exact h.exec.2 rest m hm
  | loop head body =>
    rw [Machine.runFrame]
    split
    · exact h.pass hm head body (h.exec.2 body)
    · exact h.pause .yield (by rintro _ ⟨⟩) hm
  | again head body => exact h.pass hm head body (h.exec.2 body)
  | glide way started secs =>
    rw [runFrame_glide_eq]
    dsimp only
    cases hw : m.world.glideTo self.entity way
        ((Span.ofMillis (m.world.clock - started)).toSeconds / secs) with
    | error e => exact h.ended (h.draw _ hm)
    | ok world =>
      have hn := h.world hm ((m.world.changes_glideTo _ way _).of_ok hw).speaking
      show Arrives P Q E (if _ then _ else _)
      split
      · exact hn
      · exact h.pauseFor hn _ _
  | unsay kind seq =>
    rw [runFrame_unsay_eq]
    cases hw : m.world.clearSpeech self.entity kind seq with
    | error e => exact h.ended (h.draw _ hm)
    | ok world => exact h.world hm ((m.world.meets_clearSpeech _ kind seq).of_ok hw)
  | check condition syncMouse => exact h.check hm condition syncMouse

theorem runFrames (h : TurnInvariant self P Q E) (hm : P m) (frames : List Frame) :
    Arrives P Q E (runFrames self m frames) := by
  induction frames generalizing m with
  | nil => exact h.ended hm
  | cons f rest ih => exact andThen (h.runFrame hm f) fun n hn => ih hn

/-- How the turn of a task ends that has not been stopped. -/
theorem poll {t : Task} (h : TurnInvariant ⟨t.id, t.entity⟩ P Q E) (ht : m.task? t.id = some t)
    (hs : m.isStopped t.token = false) (hm : P (m.setTask t.id ({ · with state := .running }))) :
    (∃ n ending, E n ∧ m.poll t.id = n.finish t ending) ∨
      ∃ n pause frames, Q n pause ∧ m.poll t.id = n.suspend t.id pause frames := by
  have hmeets := h.runFrames hm t.frames
  simp only [Machine.poll, ht, hs, Bool.false_eq_true, if_false]
  generalize Machine.runFrames _ _ t.frames = step at hmeets ⊢
  cases step with
  | done n => exact .inl ⟨n, .completed, h.ended hmeets, rfl⟩
  | ended n ending => exact .inl ⟨n, ending, hmeets, rfl⟩
  | paused n pause frames => exact .inr ⟨n, pause, frames, hmeets, rfl⟩

end TurnInvariant

end SpriteStage.Machine
