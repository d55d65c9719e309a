import SpriteStage.Machine.Execute
import SpriteStage.Proofs.Script.Refusal

/-!
Actions read as functions of the world.

A deed works in place, so it could fail with half of its work done, and some deeds do
(`Deed.exists_ne_atomically`). It is atomic if the world changes only where there is no failure
(`Deed.atomically`). Evaluations and checks may come before an atomic deed (`Deed.evaluate_bind`),
and nothing that can fail after a change. Every deed of a statement is put together in this way, and
makes of the world what the function of its name on worlds says. So an action can be read as a
function that gives the new world and what its script does next, or a failure (`Action.run`,
`Machine.act_eq`).
-/

namespace SpriteStage

open Stage (Point Glide)

/-! ### Computations -/

namespace Eval

variable {α β : Type}

theorem ofExcept_bind (x : Except ScriptError α) (f : α → Except ScriptError β) :
    ofExcept (x >>= f) = ofExcept x >>= fun a => ofExcept (f a) := by
  cases x <;> rfl

end Eval

/-! ### Atomic deeds -/

namespace Deed

variable {α β : Type}

/-- All or nothing: a failure leaves the world as it was. -/
def atomically (f : World → Eval (α × World)) : Deed α := fun s =>
  match (f s.world).run.run s.random with
  | (.ok (a, world), random) => .ok a ⟨world, random⟩
  | (.error e, random) => .error e ⟨s.world, random⟩

/-- Deeds need not be atomic: this one resets the timer before it looks for a backdrop. -/
theorem exists_ne_atomically : ∃ d : Deed Unit, ∀ f, d ≠ atomically f := by
  refine ⟨do resetTimer; nextBackground, fun f hd => ?_⟩
  have hrun := congrFun hd ⟨{ World.empty 0 with clock := 1 }, .ofSeed 0⟩
  simp only [atomically] at hrun
  split at hrun
  · cases hrun
  · injection hrun with _ hscene
    have htimer : 1 = 0 := congrArg (·.world.timerStart) hscene
    cases htimer

/-- An atomic deed of which nothing but the world is left. -/
def edit (f : World → Eval World) : Deed Unit :=
  atomically fun w => do return ((), ← f w)

theorem evaluate_bind {x : World → Eval α} {d : α → Deed β} {f : α → World → Eval (β × World)}
    (h : ∀ a, d a = atomically (f a)) :
    (evaluate x >>= d) = atomically fun w => x w >>= fun a => f a w := by
  obtain rfl : d = fun a => atomically (f a) := funext h
  funext s
  show EStateM.bind _ _ s = _
  unfold EStateM.bind evaluate atomically
  rw [Eval.run_bind]
  cases (x s.world).run.run s.random with
  | mk result random => cases result <;> rfl

theorem pure_eq (a : α) : (pure a : Deed α) = atomically fun w => return (a, w) :=
  rfl

theorem atomically_map (f : World → Eval (α × World)) (g : α → β) :
    (atomically f >>= fun a => pure (g a)) = atomically fun w => do
      let p ← f w
      return (g p.1, p.2) := by
  funext s
  show EStateM.bind _ _ s = _
  unfold EStateM.bind atomically
  rw [Eval.run_bind]
  cases (f s.world).run.run s.random with
  | mk result random => cases result <;> rfl

theorem evaluate_eq (x : World → Eval α) :
    evaluate x = atomically fun w => do return (← x w, w) := by
  funext s
  unfold evaluate atomically
  rw [Eval.run_bind]
  cases (x s.world).run.run s.random with
  | mk result random => cases result <;> rfl

theorem evaluate_bind_evaluate {x : World → Eval α} {d : α → Deed β} {f : α → World → Eval β}
    (h : ∀ a, d a = evaluate (f a)) :
    (evaluate x >>= d) = evaluate fun w => x w >>= fun a => f a w := by
  rw [evaluate_bind fun a => (h a).trans (evaluate_eq _), evaluate_eq]
  simp only [bind_assoc]

theorem evaluate_bind_edit {x : World → Eval α} {d : α → Deed Unit} {f : α → World → Eval World}
    (h : ∀ a, d a = edit (f a)) : (evaluate x >>= d) = edit fun w => x w >>= fun a => f a w := by
  rw [evaluate_bind h, edit]
  simp only [bind_assoc]

theorem check_bind {x : World → Except ScriptError α} {d : α → Deed β}
    {f : α → World → Except ScriptError (β × World)}
    (h : ∀ a, d a = atomically fun w => .ofExcept (f a w)) :
    (check x >>= d) = atomically fun w => .ofExcept (x w >>= fun a => f a w) := by
  simp only [check, evaluate_bind h, Eval.ofExcept_bind]

theorem check_bind_edit {x : World → Except ScriptError α} {d : α → Deed Unit}
    {f : α → World → Except ScriptError World} (h : ∀ a, d a = edit fun w => .ofExcept (f a w)) :
    (check x >>= d) = edit fun w => .ofExcept (x w >>= fun a => f a w) := by
  simp only [check, evaluate_bind_edit h, Eval.ofExcept_bind]

theorem check_bind_check {x : World → Except ScriptError α} {d : α → Deed β}
    {f : α → World → Except ScriptError β} (h : ∀ a, d a = check (f a)) :
    (check x >>= d) = check fun w => x w >>= fun a => f a w := by
  simp only [check, evaluate_bind_evaluate h, Eval.ofExcept_bind]

/-! ### Motion and looks -/

theorem number_eq (id : EntityId) (argument : String) (e : Expr) :
    number id argument e = evaluate (e.evalNumber · id argument) :=
  evaluate_bind_evaluate fun _ => rfl

theorem number_bind {id : EntityId} {argument : String} {e : Expr} {d : Float → Deed β}
    {f : Float → World → Eval (β × World)} (h : ∀ x, d x = atomically (f x)) :
    (number id argument e >>= d) =
      atomically fun w => e.evalNumber w id argument >>= fun x => f x w := by
  rw [number_eq, evaluate_bind h]

theorem number_bind_edit {id : EntityId} {argument : String} {e : Expr} {d : Float → Deed Unit}
    {f : Float → World → Eval World} (h : ∀ x, d x = edit (f x)) :
    (number id argument e >>= d) =
      edit fun w => e.evalNumber w id argument >>= fun x => f x w := by
  rw [number_eq, evaluate_bind_edit h]

variable (id : EntityId)

theorem moveTo_eq (p : Point Float) : moveTo id p = edit fun w => .ofExcept (w.moveTo id p) :=
  check_bind_edit fun _ => check_bind_edit fun _ => rfl

theorem moveBy_eq (dx dy : Float) :
    moveBy id dx dy = edit fun w => .ofExcept (w.moveBy id dx dy) :=
  check_bind_edit fun _ => moveTo_eq id _

theorem moveSteps_eq (steps : Float) :
    moveSteps id steps = edit fun w => .ofExcept (w.moveSteps id steps) :=
  check_bind_edit fun _ => moveBy_eq id _ _

theorem pointInDirection_eq (direction : Float) :
    pointInDirection id direction = edit fun w => .ofExcept (w.pointInDirection id direction) :=
  check_bind_edit fun _ => check_bind_edit fun _ => rfl

theorem rotate_eq (degrees : Float) :
    rotate id degrees = edit fun w => .ofExcept (w.rotate id degrees) :=
  check_bind_edit fun _ => check_bind_edit fun _ => pointInDirection_eq id _

theorem put_update (e e' : Entity) (patch : EntityPatch) :
    (do put id e; update id e' patch) = update id e' patch := by
  funext s
  show EStateM.Result.ok () _ = .ok () _
  simp [World.setEntity]

theorem bounceOnEdge_eq : bounceOnEdge id = edit fun w => .ofExcept (w.bounceOnEdge id) := by
  refine check_bind_edit fun e => ?_
  cases (Stage.gaps e.position e.halfSize).edge? with
  | none => rfl
  | some edge => exact put_update id _ _ _

theorem planGlide_eq (p : Point Float) : planGlide id p = check (·.planGlide id p) :=
  check_bind_check fun _ => check_bind_check fun _ => rfl

theorem glideTo_eq (way : Glide Float) (share : Float) :
    glideTo id way share = edit fun w => .ofExcept (w.glideTo id way share) :=
  check_bind_edit fun _ => rfl

theorem setSize_eq (percent : Float) :
    setSize id percent = edit fun w => .ofExcept (w.setSize id percent) :=
  check_bind_edit fun _ => check_bind_edit fun _ => rfl

theorem changeSize_eq (percent : Float) :
    changeSize id percent = edit fun w => .ofExcept (w.changeSize id percent) :=
  check_bind_edit fun _ => setSize_eq id _

theorem setVisible_eq (visible : Bool) :
    setVisible id visible = edit fun w => .ofExcept (w.setVisible id visible) :=
  check_bind_edit fun _ => rfl

theorem say_eq (kind : SpeechKind) (text : String) (secs : Option Float) :
    say id kind text secs = atomically fun w => .ofExcept (w.say id kind text secs) :=
  check_bind fun _ => rfl

theorem say_map {β : Type} (kind : SpeechKind) (text : String) (secs : Option Float) (g : Nat → β) :
    (do return g (← say id kind text secs)) = atomically fun w => do
      let p ← Eval.ofExcept (w.say id kind text secs)
      return (g p.1, p.2) := by
  rw [say_eq, atomically_map]

theorem clearSpeech_eq (kind : SpeechKind) (seq : Nat) :
    clearSpeech id kind seq = edit fun w => .ofExcept (w.clearSpeech id kind seq) := by
  refine check_bind_edit fun e => ?_
  split <;> rfl

/-! ### Costumes, backdrops and sounds -/

theorem applyCostume_eq (index : Nat) :
    applyCostume id index = edit fun w => .ofExcept (w.applyCostume id index) := by
  refine check_bind_edit fun e => ?_
  dsimp only
  split <;> rfl

theorem nextCostume_eq : nextCostume id = edit fun w => .ofExcept (w.nextCostume id) := by
  refine check_bind_edit fun e => ?_
  split
  · rfl
  · exact applyCostume_eq id _

theorem nextBackground_eq : nextBackground = edit fun w => .ofExcept w.nextBackground :=
  check_bind_edit fun _ => nextCostume_eq _

theorem chooseCostume_bind (e : Entity) (choice : Value) (words : World.Keywords)
    (error : ScriptError) :
    (do applyCostume id (← chooseCostume e choice words error)) =
      edit fun w =>
        match World.costumeIndex? e.costumes e.currentCostume choice words with
        | some index => .ofExcept (w.applyCostume id index)
        | none => throw error := by
  refine (check_bind_edit fun _ => applyCostume_eq id _).trans ?_
  cases World.costumeIndex? e.costumes e.currentCostume choice words <;> rfl

theorem switchBackground_eq (choice : Value) :
    switchBackground choice = edit (·.switchBackground choice) := by
  refine evaluate_bind_edit (x := fun w => .ofExcept w.background) fun id => ?_
  refine evaluate_bind_edit (x := fun w => .ofExcept (w.entity id)) fun e => ?_
  dsimp only
  split
  · exact evaluate_bind_edit fun _ => applyCostume_eq id _
  · exact chooseCostume_bind id e choice _ _

theorem switchCostume_eq (choice : Value) :
    switchCostume id choice = edit (·.switchCostume id choice) := by
  refine evaluate_bind_edit (x := fun w => .ofExcept (w.entity id)) fun e => ?_
  split
  · exact switchBackground_eq choice
  · exact chooseCostume_bind id e choice _ _

theorem startSound_eq (choice : Value) :
    startSound id choice = atomically fun w => .ofExcept (w.startSound id choice) := by
  refine check_bind fun e => ?_
  cases World.findSound? e.sounds choice <;> rfl

/-! ### Variables -/

theorem setVar_eq (name : String) (value : Value) :
    setVar id name value = edit fun w => return w.setVar id name value :=
  rfl

theorem changeVar_eq (name : String) (delta : Float) :
    changeVar id name delta = edit fun w => return w.changeVar id name delta :=
  rfl

theorem setVariableVisible_eq (name : String) (visible : Bool) :
    setVariableVisible id name visible =
      edit fun w => return w.setVariableVisible id name visible :=
  rfl

end Deed

/-! ### Actions -/

/-- What a script does after the immediate part of an action. -/
inductive Sequel where
  | proceed
  | sleep (span : Span)
  | glide (way : Stage.Glide Float) (secs : Float)
  /-- Takes the speech bubble away after a while. -/
  | unsay (kind : SpeechKind) (seq : Nat) (span : Span)
  /-- Sends a message, and then perhaps sleeps. -/
  | broadcast (message : String) (span : Option Span)
  | askMouse
  | stop (scope : StopScope)
  deriving DecidableEq, Repr

namespace Action

/-- The action has done all it does. -/
def proceed (result : Except ScriptError World) : Eval (World × Sequel) := do
  return (← Eval.ofExcept result, .proceed)

/-- The action for an entity: the world after its immediate part, and what comes next. -/
def run (w : World) (id : EntityId) : Action → Eval (World × Sequel)
  | .moveTo x y => do
    let x ← x.evalNumber w id "X"
    let y ← y.evalNumber w id "Y"
    proceed (w.moveTo id ⟨x, y⟩)
  | .moveBy dx dy => do
    let dx ← dx.evalNumber w id "DX"
    let dy ← dy.evalNumber w id "DY"
    proceed (w.moveBy id dx dy)
  | .moveSteps steps => do
    let steps ← steps.evalNumber w id "STEPS"
    proceed (w.moveSteps id steps)
  | .glide secs x y => do
    let secs ← secs.evalNumber w id "SECS"
    let x ← x.evalNumber w id "X"
    let y ← y.evalNumber w id "Y"
    let way ← Eval.ofExcept (w.planGlide id ⟨x, y⟩)
    if 0 < secs then return (w, .glide way secs)
    else return (← Eval.ofExcept (w.glideTo id way 1), .sleep .zero)
  | .rotate degrees => do
    let degrees ← degrees.evalNumber w id "DEGREES"
    proceed (w.rotate id degrees)
  | .pointInDirection direction => do
    let direction ← direction.evalNumber w id "DIRECTION"
    proceed (w.pointInDirection id direction)
  | .bounceOnEdge => proceed (w.bounceOnEdge id)
  | .setSize percent => do
    let percent ← percent.evalNumber w id "SIZE"
    proceed (w.setSize id percent)
  | .changeSize percent => do
    let percent ← percent.evalNumber w id "CHANGE"
    proceed (w.changeSize id percent)
  | .appear => proceed (w.setVisible id true)
  | .vanish => proceed (w.setVisible id false)
  | .wait secs => do
    let secs ← secs.evalNumber w id "DURATION"
    return (w, .sleep (.ofWait secs))
  | .broadcast message => do
    let message ← message.eval w id
    return (w, .broadcast message.toText none)
  | .broadcastAndWait message secs => do
    let message ← message.eval w id
    let secs ← secs.evalNumber w id "SECS"
    return (w, .broadcast message.toText (some (.ofWait secs)))
  | .setVar name value => do
    let value ← value.eval w id
    return (w.setVar id name value, .proceed)
  | .changeVar name delta => do
    let delta ← delta.evalNumber w id "VALUE"
    return (w.changeVar id name delta, .proceed)
  | .showVariable name => return (w.setVariableVisible id name true, .proceed)
  | .hideVariable name => return (w.setVariableVisible id name false, .proceed)
  | .speech kind text none => do
    let text ← text.eval w id
    let (_, w) ← Eval.ofExcept (w.say id kind text.toText none)
    return (w, .proceed)
  | .speech kind text (some secs) => do
    let text ← text.eval w id
    let secs ← secs.evalNumber w id "SECS"
    let (seq, w) ← Eval.ofExcept (w.say id kind text.toText (some secs))
    return (w, .unsay kind seq (.ofWait secs))
  | .switchCostume costume => do
    let costume ← costume.eval w id
    return (← w.switchCostume id costume, .proceed)
  | .nextCostume => proceed (w.nextCostume id)
  | .switchBackground backdrop => do
    let backdrop ← backdrop.eval w id
    return (← w.switchBackground backdrop, .proceed)
  | .nextBackground => proceed w.nextBackground
  | .playSound sound untilDone => do
    let sound ← sound.eval w id
    let (secs, w) ← Eval.ofExcept (w.startSound id sound)
    return (w, if untilDone then .sleep (.ofWait secs) else .proceed)
  | .stopAllSounds => return (w.stopAllSounds, .proceed)
  | .resetTimer => return (w.resetTimer, .proceed)
  | .stop scope => return (w, .stop scope)
  | .syncMouse => return (w, .askMouse)
  | .yield => return (w, .sleep .zero)

end Action

namespace Machine

open Deed

/-- What comes after the immediate part of an action. -/
def follow (m : Machine) (self : Self) : Sequel → Step
  | .proceed => .done m
  | .sleep span => m.pauseFor span []
  | .glide way secs => m.pauseFor m.options.tick [.glide way m.world.clock secs]
  | .unsay kind seq span => m.pauseFor span [.unsay kind seq]
  | .broadcast message none => .done (m.broadcast message self.entity)
  | .broadcast message (some span) => (m.broadcast message self.entity).pauseFor span []
  | .askMouse => m.askMouse self
  | .stop scope => m.stopScope self scope

theorem eval_bind {α β : Type} (m : Machine) (x : Eval α) (f : α → Eval β)
    (k : β → Machine → Step) : m.eval (x >>= f) k = m.eval x fun a n => n.eval (f a) k := by
  unfold eval
  rw [Eval.run_bind]
  cases x.run.run m.random with
  | mk result random => cases result <;> rfl

theorem eval_pure {α : Type} (m : Machine) (a : α) (k : α → Machine → Step) :
    m.eval (pure a) k = k a m :=
  rfl

theorem work_atomically {α : Type} (m : Machine) (f : World → Eval (α × World))
    (k : α → Machine → Step) :
    m.work (atomically f) k = m.eval (f m.world) fun (a, world) m => k a { m with world } := by
  unfold work eval EStateM.run atomically
  dsimp only
  cases (f m.world).run.run m.random with
  | mk result random => cases result <;> rfl

theorem work_edit (m : Machine) (f : World → Eval World) (k : Unit → Machine → Step) :
    m.work (edit f) k = m.eval (f m.world) fun world m => k () { m with world } := by
  rw [edit, work_atomically, eval_bind]
  rfl

theorem work_evaluate {α : Type} (m : Machine) (x : World → Eval α) (k : α → Machine → Step) :
    m.work (evaluate x) k = m.eval (x m.world) k := by
  rw [evaluate_eq, work_atomically, eval_bind]
  unfold eval
  cases (x m.world).run.run m.random with
  | mk result random => cases result <;> rfl

theorem eval_congr {α : Type} {m : Machine} {x : Eval α} {k l : α → Machine → Step}
    (h : ∀ a random, k a { m with random } = l a { m with random }) : m.eval x k = m.eval x l := by
  unfold eval
  split
  · exact h _ _
  · rfl

section Actions

variable (m : Machine) (self : Self)

/-- An action whose deed is atomic, and of whose result it depends what comes next. -/
theorem work_eq {α : Type} {d : Deed α} {f : World → Eval (α × World)} {k : α → Machine → Step}
    {a : Action} (sequel : α → Sequel) (hd : d = atomically f)
    (ha : a.run m.world self.entity = f m.world >>= fun p => return (p.2, sequel p.1))
    (hk : ∀ x n, k x n = n.follow self (sequel x)) :
    m.work d k = m.eval (a.run m.world self.entity) fun (world, sequel) m =>
      { m with world }.follow self sequel := by
  rw [hd, ha, work_atomically, eval_bind]
  exact eval_congr fun _ _ => hk _ _

/-- An action whose deed is atomic and all there is. -/
theorem perform_eq {d : Deed Unit} {f : World → Eval World} {a : Action} (hd : d = edit f)
    (ha : a.run m.world self.entity = f m.world >>= fun w => return (w, .proceed)) :
    m.perform d = m.eval (a.run m.world self.entity) fun (world, sequel) m =>
      { m with world }.follow self sequel := by
  refine work_eq m self (fun _ => .proceed) hd (ha.trans ?_) fun _ _ => rfl
  simp only [bind_assoc, pure_bind]

theorem glide_eq (secs : Float) (way : Glide Float) :
    m.glide self secs way =
      if 0 < secs then m.follow self (.glide way secs)
      else m.eval (.ofExcept (m.world.glideTo self.entity way 1)) fun world m =>
        { m with world }.follow self (.sleep .zero) := by
  rw [glide, glideTo_eq, work_edit]
  rfl

theorem act_glide (secs x y : Expr) :
    m.act self (.glide secs x y) =
      m.eval ((Action.glide secs x y).run m.world self.entity) fun (world, sequel) m =>
        { m with world }.follow self sequel := by
  have hplan : (do
      let secs ← number self.entity "SECS" secs
      let x ← number self.entity "X" x
      let y ← number self.entity "Y" y
      return (secs, ← planGlide self.entity ⟨x, y⟩) : Deed (Float × Glide Float)) =
      evaluate fun w => do
        let secs ← secs.evalNumber w self.entity "SECS"
        let x ← x.evalNumber w self.entity "X"
        let y ← y.evalNumber w self.entity "Y"
        return (secs, ← Eval.ofExcept (w.planGlide self.entity ⟨x, y⟩)) := by
    simp only [number_eq, planGlide_eq]
    refine evaluate_bind_evaluate fun _ => evaluate_bind_evaluate fun _ => ?_
    exact evaluate_bind_evaluate fun _ => evaluate_bind_evaluate fun _ => rfl
  simp only [act, hplan, work_evaluate, Action.run, eval_bind]
  refine eval_congr fun secs _ => eval_congr fun x _ => eval_congr fun y _ => ?_
  refine eval_congr fun way _ => ?_
  rw [eval_pure, glide_eq]
  split
  · rfl
  · rw [eval_bind]
    rfl

theorem act_speech (kind : SpeechKind) (text : Expr) (secs : Option Expr) :
    m.act self (.speech kind text secs) =
      m.eval ((Action.speech kind text secs).run m.world self.entity) fun (world, sequel) m =>
        { m with world }.follow self sequel := by
  cases secs with
  | none =>
    refine work_eq m self (fun _ => .proceed) (evaluate_bind fun _ => say_eq ..) ?_ fun _ _ => rfl
    simp only [Action.run, bind_assoc]
  | some secs =>
    refine work_eq m self (fun p : Nat × Float => .unsay kind p.1 (.ofWait p.2))
      (evaluate_bind fun _ => number_bind fun secs => say_map _ _ _ _ (·, secs)) ?_ fun _ _ => rfl
    simp only [Action.run, bind_assoc, pure_bind]

/-- An action works in place, and comes to what its reading says: where it fails, nothing has
happened but that random numbers were drawn. -/
theorem act_eq (a : Action) :
    m.act self a = m.eval (a.run m.world self.entity) fun (world, sequel) m =>
      { m with world }.follow self sequel := by
  cases a with
  | bounceOnEdge => exact perform_eq m self (bounceOnEdge_eq _) rfl
  | appear | vanish => exact perform_eq m self (setVisible_eq _ _) rfl
  | nextCostume => exact perform_eq m self (nextCostume_eq _) rfl
  | nextBackground => exact perform_eq m self nextBackground_eq rfl
  | stopAllSounds | resetTimer => exact perform_eq m self (f := fun w => return _) rfl rfl
  | showVariable | hideVariable => exact perform_eq m self (setVariableVisible_eq _ _ _) rfl
  -- An argument or two come first, and then the deed.
  | moveSteps =>
    refine perform_eq m self (number_bind_edit fun _ => moveSteps_eq _ _) ?_
    simp only [Action.run, Action.proceed, bind_assoc]
  | rotate =>
    refine perform_eq m self (number_bind_edit fun _ => rotate_eq _ _) ?_
    simp only [Action.run, Action.proceed, bind_assoc]
  | pointInDirection =>
    refine perform_eq m self (number_bind_edit fun _ => pointInDirection_eq _ _) ?_
    simp only [Action.run, Action.proceed, bind_assoc]
  | setSize =>
    refine perform_eq m self (number_bind_edit fun _ => setSize_eq _ _) ?_
    simp only [Action.run, Action.proceed, bind_assoc]
  | changeSize =>
    refine perform_eq m self (number_bind_edit fun _ => changeSize_eq _ _) ?_
    simp only [Action.run, Action.proceed, bind_assoc]
  | moveTo =>
    refine perform_eq m self (number_bind_edit fun _ => number_bind_edit fun _ => moveTo_eq _ _) ?_
    simp only [Action.run, Action.proceed, bind_assoc]
  | moveBy =>
    refine perform_eq m self (number_bind_edit fun _ => number_bind_edit fun _ => moveBy_eq ..) ?_
    simp only [Action.run, Action.proceed, bind_assoc]
  | changeVar name =>
    refine perform_eq m self (number_bind_edit fun _ => changeVar_eq _ name _) ?_
    simp only [Action.run, bind_assoc, pure_bind]
  | setVar name =>
    refine perform_eq m self (evaluate_bind_edit fun _ => setVar_eq self.entity name _) ?_
    simp only [Action.run, bind_assoc, pure_bind]
  | switchCostume =>
    refine perform_eq m self (evaluate_bind_edit fun _ => switchCostume_eq self.entity _) ?_
    simp only [Action.run, bind_assoc]
  | switchBackground =>
    refine perform_eq m self (evaluate_bind_edit fun _ => switchBackground_eq _) ?_
    simp only [Action.run, bind_assoc]
  -- What comes next depends on the arguments.
  | glide => exact act_glide m self _ _ _
  | wait =>
    refine work_eq m self (.sleep <| .ofWait ·) ((number_eq ..).trans (evaluate_eq _)) ?_
      fun _ _ => rfl
    simp only [Action.run, bind_assoc, pure_bind]
  | broadcast =>
    refine work_eq m self (fun v : Value => .broadcast v.toText none) (evaluate_eq _) ?_
      fun _ _ => rfl
    simp only [Action.run, bind_assoc, pure_bind]
  | broadcastAndWait message secs =>
    dsimp only [act]
    refine work_eq m self (fun p : String × Float => .broadcast p.1 (some (.ofWait p.2)))
      (evaluate_bind fun _ => number_bind fun _ => pure_eq _) ?_ fun _ _ => rfl
    simp only [Action.run, bind_assoc, pure_bind]
  | speech kind text secs => exact act_speech m self kind text secs
  | playSound sound untilDone =>
    dsimp only [act]
    refine work_eq m self (fun secs => if untilDone then .sleep (.ofWait secs) else .proceed)
      (evaluate_bind fun _ => startSound_eq _ _) ?_ ?_
    · simp only [Action.run, bind_assoc]
    · intro _ _
      cases untilDone <;> rfl
  | stop | syncMouse | yield => rfl

/-! ### Frames -/

theorem runFrame_glide_eq (way : Glide Float) (started : Nat) (secs : Float) :
    runFrame self m (.glide way started secs) =
      let share := (Span.ofMillis (m.world.clock - started)).toSeconds / secs
      m.eval (.ofExcept (m.world.glideTo self.entity way share)) fun world m =>
        let m := { m with world }
        if 1 ≤ share then .done m else m.pauseFor m.options.tick [.glide way started secs] := by
  rw [runFrame, glideTo_eq, work_edit]

theorem runFrame_unsay_eq (kind : SpeechKind) (seq : Nat) :
    runFrame self m (.unsay kind seq) =
      m.eval (.ofExcept (m.world.clearSpeech self.entity kind seq)) fun world m =>
        .done { m with world } := by
  rw [runFrame, clearSpeech_eq, perform, work_edit]

end Actions

end Machine

end SpriteStage
