import SpriteStage.Proofs.Compile.Plan
import SpriteStage.Proofs.Machine.Failure

/-!
Numeric slots.

A block that needs a number refuses a text that is none, before it does anything. It evaluates what
its slots hold in their order, so it is the first such text that it complains about
(`checkSlots_refuses`). One block is different: turning to the left is compiled into turning by zero
less the angle, and to an operator every text is some number.
-/

namespace SpriteStage

/-- A text that is neither blank nor a number. -/
def Text.NoNumber (s : String) : Prop :=
  Text.isBlankText s = false ∧ Number.readNumber s = none

theorem Value.strictNumber?_eq_none_iff {v : Value} :
    v.strictNumber? = none ↔ ∃ s, v = .text s ∧ Text.NoNumber s := by
  cases v with
  | number x => simp [strictNumber?]
  | bool b => simp [strictNumber?]
  | text s => cases hb : Text.isBlankText s <;> simp [strictNumber?, Text.NoNumber, hb]

/-- The slots of a block that take a number. -/
def BlockKind.numericSlots : BlockKind → List String
  | .moveSteps => ["STEPS"]
  | .turnRight | .turnLeft => ["DEGREES"]
  | .goToXY => ["X", "Y"]
  | .glideSecsToXY => ["SECS", "X", "Y"]
  | .changeXBy => ["DX"]
  | .setX => ["X"]
  | .changeYBy => ["DY"]
  | .setY => ["Y"]
  | .pointInDirection => ["DIRECTION"]
  | .changeSizeBy => ["CHANGE"]
  | .setSizeTo => ["SIZE"]
  | .wait => ["DURATION"]
  | .repeatTimes => ["TIMES"]
  | .sayForSecs | .thinkForSecs | .broadcastAndWait => ["SECS"]
  | .changeVariableBy => ["VALUE"]
  | _ => []

/-! ### Computations that fail alike -/

namespace Eval

variable {α β γ : Type}

/-- Where the first computation fails, the second does, too, and in the same way. -/
def FailsAs (x : Eval α) (y : Eval β) : Prop :=
  ∀ r e r', x.run.run r = (.error e, r') → y.run.run r = (.error e, r')

theorem failsAs_pure (a : α) (y : Eval β) : FailsAs (pure a) y := by
  intro r e r' h
  cases h

theorem failsAs_bind (x : Eval α) {f : α → Eval β} {g : α → Eval γ} (h : ∀ a, FailsAs (f a) (g a)) :
    FailsAs (x >>= f) (x >>= g) := by
  intro r e r' hf
  rw [run_bind] at hf ⊢
  cases hx : x.run.run r with
  | mk result r₁ =>
    rw [hx] at hf
    cases result with
    | ok a => exact h a r₁ e r' hf
    | error e' =>
      cases hf
      rfl

/-- What is computed first does not matter if it cannot fail and draws nothing. -/
theorem failsAs_silent {x : Eval α} {y : Eval β} {g : α → Eval γ} {a : α}
    (hx : ∀ r, x.run.run r = (.ok a, r)) (h : FailsAs y (g a)) : FailsAs y (x >>= g) := by
  intro r e r' hy
  rw [run_bind, hx]
  exact h r e r' hy

end Eval

open Eval

/-! ### The values of slots -/

section Slots

variable (w : World) (id : EntityId)

/-- The values of what the slots hold, one after the other. -/
def evalSlots : List (String × Expr) → Eval (List (String × Value))
  | [] => return []
  | (slot, e) :: rest => do
    let v ← e.eval w id
    let values ← evalSlots rest
    return (slot, v) :: values

/-- Goes through the slots and fails at the first one of `numeric` that has no number. -/
def checkSlots (numeric : List String) : List (String × Expr) → Eval Unit
  | [] => return ()
  | (slot, e) :: rest =>
    if slot ∈ numeric then do
      let _ ← e.evalNumber w id slot
      checkSlots numeric rest
    else do
      let _ ← e.eval w id
      checkSlots numeric rest

variable {w id}

theorem run_evalNumber {e : Expr} {r r' : SplitMix} {v : Value} (argument : String)
    (h : (e.eval w id).run.run r = (.ok v, r')) :
    (e.evalNumber w id argument).run.run r = (v.asArgument argument, r') := by
  rw [Expr.evalNumber, run_bind, h]
  rfl

theorem evalSlots_cons_ok {name : String} {e : Expr} {rest : List (String × Expr)}
    {values : List (String × Value)} {r r' : SplitMix}
    (h : (evalSlots w id ((name, e) :: rest)).run.run r = (.ok values, r')) :
    ∃ v r₁ vs, (e.eval w id).run.run r = (.ok v, r₁) ∧
      (evalSlots w id rest).run.run r₁ = (.ok vs, r') ∧ values = (name, v) :: vs := by
  rw [evalSlots, run_bind] at h
  cases he : (e.eval w id).run.run r with
  | mk result r₁ =>
    rw [he] at h
    cases result with
    | error err => cases h
    | ok v =>
      simp only [run_bind] at h
      cases hrest : (evalSlots w id rest).run.run r₁ with
      | mk result r₂ =>
        rw [hrest] at h
        cases result with
        | error err => cases h
        | ok vs =>
          cases h
          exact ⟨v, r₁, vs, rfl, hrest, rfl⟩

theorem names_of_evalSlots {exprs : List (String × Expr)} {values : List (String × Value)}
    {r r' : SplitMix} (h : (evalSlots w id exprs).run.run r = (.ok values, r')) :
    values.map (·.1) = exprs.map (·.1) := by
  induction exprs generalizing r values with
  | nil =>
    cases h
    rfl
  | cons entry rest ih =>
    obtain ⟨v, r₁, vs, _, hrest, rfl⟩ := evalSlots_cons_ok h
    rw [List.map_cons, List.map_cons, ih hrest]

theorem total_evalSlots (h : id < w.entities.length) (exprs : List (String × Expr)) :
    (evalSlots w id exprs).Total := by
  induction exprs with
  | nil => exact total_pure []
  | cons entry rest ih =>
    exact total_bind (entry.2.total_eval h) fun v => total_bind ih fun vs => total_pure _

theorem run_checkSlots_cons {numeric : List String} {name : String} {e : Expr}
    {rest : List (String × Expr)} {v : Value} {r r₁ : SplitMix}
    (h : (e.eval w id).run.run r = (.ok v, r₁)) :
    (checkSlots w id numeric ((name, e) :: rest)).run.run r =
      if name ∈ numeric ∧ v.strictNumber? = none then
        (.error (.invalidNumber name v.toText), r₁)
      else (checkSlots w id numeric rest).run.run r₁ := by
  by_cases hname : name ∈ numeric
  · rw [checkSlots, if_pos hname, run_bind, run_evalNumber name h]
    cases hs : v.strictNumber? <;> simp [Value.asArgument, hs, hname]
  · rw [checkSlots, if_neg hname, run_bind, h]
    simp [hname]

theorem checkSlots_refuses {numeric : List String} {exprs : List (String × Expr)}
    {values : List (String × Value)} {r r' : SplitMix} {slot text : String}
    (h : (evalSlots w id exprs).run.run r = (.ok values, r')) (hslot : slot ∈ numeric)
    (hmem : (slot, .text text) ∈ values) (htext : Text.NoNumber text) :
    ∃ argument value random, argument ∈ numeric ∧ (argument, .text value) ∈ values ∧
      Text.NoNumber value ∧ (checkSlots w id numeric exprs).run.run r =
        (.error (.invalidNumber argument value), random) := by
  induction exprs generalizing r values with
  | nil =>
    cases h
    cases hmem
  | cons entry rest ih =>
    obtain ⟨name, e⟩ := entry
    obtain ⟨v, r₁, vs, he, hrest, rfl⟩ := evalSlots_cons_ok h
    rw [run_checkSlots_cons he]
    by_cases hrefused : name ∈ numeric ∧ v.strictNumber? = none
    · obtain ⟨value, rfl, hno⟩ := Value.strictNumber?_eq_none_iff.1 hrefused.2
      exact ⟨name, value, r₁, hrefused.1, List.mem_cons_self, hno, if_pos hrefused⟩
    · have hlater : (slot, .text text) ∈ vs := by
        refine (List.mem_cons.1 hmem).resolve_left fun heq => hrefused ?_
        cases heq
        exact ⟨hslot, Value.strictNumber?_eq_none_iff.2 ⟨text, rfl, htext⟩⟩
      obtain ⟨argument, value, random, ha, hv, hno, hfail⟩ := ih hrest hlater
      refine ⟨argument, value, random, ha, List.mem_cons_of_mem _ hv, hno, ?_⟩
      rw [if_neg hrefused]
      exact hfail

/-! ### Statements that begin with a check -/

variable {α : Type} {numeric : List String}

theorem failsAs_nil (y : Eval α) : (checkSlots w id numeric []).FailsAs y :=
  failsAs_pure () y

theorem failsAs_number {slot : String} {e : Expr} {rest : List (String × Expr)} {k : Float → Eval α}
    (hslot : slot ∈ numeric) (h : ∀ x, (checkSlots w id numeric rest).FailsAs (k x)) :
    (checkSlots w id numeric ((slot, e) :: rest)).FailsAs (e.evalNumber w id slot >>= k) := by
  rw [checkSlots, if_pos hslot]
  exact failsAs_bind _ h

theorem failsAs_value {slot : String} {e : Expr} {rest : List (String × Expr)} {k : Value → Eval α}
    (hslot : slot ∉ numeric) (h : ∀ v, (checkSlots w id numeric rest).FailsAs (k v)) :
    (checkSlots w id numeric ((slot, e) :: rest)).FailsAs (e.eval w id >>= k) := by
  rw [checkSlots, if_neg hslot]
  exact failsAs_bind _ h

theorem run_evalNumber_literal (w : World) (id : EntityId) (x : Float) (argument : String) :
    ∃ y, ∀ r, ((Expr.literal (.number x)).evalNumber w id argument).run.run r = (.ok y, r) :=
  ⟨_, fun _ => run_evalNumber (v := .number x) argument rfl⟩

theorem run_evalNumber_xPosition (h : id < w.entities.length) (argument : String) :
    ∃ y, ∀ r, ((Expr.sense .xPosition).evalNumber w id argument).run.run r = (.ok y, r) := by
  obtain ⟨e, he⟩ := World.entity_of_lt h
  have hv : w.query id .xPosition = .ok (.number e.x) := by
    simp only [World.query, he]
    rfl
  refine ⟨_, fun r => run_evalNumber (v := .number e.x) argument ?_⟩
  rw [Expr.eval, hv]
  rfl

end Slots

namespace Machine

/-- Where the check fails, the statement does, too, and has changed nothing. -/
def Refuses (self : Self) (m : Machine) (check : Eval Unit) (s : Stmt) : Prop :=
  ∀ e random, check.run.run m.random = (.error e, random) →
    exec self m s = .ended { m.counted with random } (.failed e)

variable {self : Self} {m : Machine} {check : Eval Unit}

theorem refuses_act {a : Action} (h : check.FailsAs (a.run m.world self.entity)) :
    Refuses self m check (.act a) := by
  intro e random hcheck
  have hrun : (a.run m.counted.world self.entity).run.run m.counted.random = (.error e, random) :=
    h m.random e random hcheck
  rw [exec, act_eq, eval, hrun]

theorem refuses_repeatTimes {times : Expr} {body : List Stmt}
    (h : check.FailsAs (times.evalNumber m.world self.entity "TIMES" >>= pure)) :
    Refuses self m check (.repeatTimes times body) := by
  rw [bind_pure] at h
  intro e random hcheck
  have hrun : (times.evalNumber m.world self.entity "TIMES").run.run m.counted.random =
      (.error e, random) :=
    h m.random e random hcheck
  rw [exec, eval, hrun]

end Machine

namespace Compile

open Machine

/-- What the slots hold, in the order in which they are looked into. -/
def slotExprs (ask : String → Step Expr) : List String → Step (List (String × Expr))
  | [] => return []
  | slot :: rest => do
    let e ← ask slot
    let exprs ← slotExprs ask rest
    return (slot, e) :: exprs

theorem run_slotExprs {ask : String → Step Expr} {slots : List String} (h : slots.Nodup)
    (f : String → Expr) (p : Progress) :
    (slotExprs ask slots).run p =
      (slots.map fun slot => (slot, ((Plan.gather ask slots f).run p).1 slot),
        ((Plan.gather ask slots f).run p).2) := by
  induction slots generalizing p with
  | nil => rfl
  | cons slot rest ih =>
    obtain ⟨hslot, hrest⟩ := List.nodup_cons.1 h
    have hother : ∀ other ∈ rest, other ≠ slot := fun other ho he => hslot (he ▸ ho)
    have hrun := ih hrest (((ask slot).run p).2)
    show (((slot, ((ask slot).run p).1) :: ((slotExprs ask rest).run ((ask slot).run p).2).1),
      ((slotExprs ask rest).run ((ask slot).run p).2).2) = _
    rw [hrun]
    refine Prod.ext ?_ rfl
    rw [List.map_cons]
    refine List.cons_eq_cons.2 ⟨?_, List.map_congr_left fun other ho => ?_⟩
    · exact congrArg (Prod.mk slot) (if_pos rfl).symm
    · exact congrArg (Prod.mk other) (if_neg (hother other ho)).symm

/-! ### Blocks -/

theorem refuses_build {b : Block} {slot : String} (hslot : slot ∈ b.kind.numericSlots)
    (hleft : b.kind ≠ .turnLeft) (hmem : slot ∈ (Plan.statement b).values) (value : String → Expr)
    (body : String → List Stmt) {self : Self} {m : Machine}
    (hself : self.entity < m.world.entities.length) :
    ∃ s, (Plan.statement b).build value body = synced s ∧
      Refuses self m (checkSlots m.world self.entity b.kind.numericSlots
        ((Plan.statement b).values.map fun slot => (slot, value slot))) s := by
  cases hk : b.kind with
  | turnLeft => exact absurd hk hleft
  | moveSteps | turnRight | pointInDirection | changeSizeBy | setSizeTo | wait | changeXBy | setX =>
    simp only [Plan.statement, hk]
    exact ⟨_, rfl, refuses_act (failsAs_number List.mem_cons_self fun _ => failsAs_nil _)⟩
  | goToXY =>
    simp only [Plan.statement, hk]
    refine ⟨_, rfl, refuses_act (failsAs_number (by simp [BlockKind.numericSlots]) fun _ => ?_)⟩
    exact failsAs_number (by simp [BlockKind.numericSlots]) fun _ => failsAs_nil _
  | glideSecsToXY =>
    simp only [Plan.statement, hk]
    refine ⟨_, rfl, refuses_act (failsAs_number (by simp [BlockKind.numericSlots]) fun _ => ?_)⟩
    refine failsAs_number (by simp [BlockKind.numericSlots]) fun _ => ?_
    exact failsAs_number (by simp [BlockKind.numericSlots]) fun _ => failsAs_nil _
  -- The other coordinate comes first and stays as it is.
  | changeYBy =>
    simp only [Plan.statement, hk]
    obtain ⟨_, hzero⟩ := run_evalNumber_literal m.world self.entity 0 "DX"
    refine ⟨_, rfl, refuses_act (failsAs_silent hzero ?_)⟩
    exact failsAs_number List.mem_cons_self fun _ => failsAs_nil _
  | setY =>
    simp only [Plan.statement, hk]
    obtain ⟨_, hx⟩ := run_evalNumber_xPosition hself "X"
    refine ⟨_, rfl, refuses_act (failsAs_silent hx ?_)⟩
    exact failsAs_number List.mem_cons_self fun _ => failsAs_nil _
  | sayForSecs | thinkForSecs | broadcastAndWait =>
    simp only [Plan.statement, hk]
    refine ⟨_, rfl, refuses_act (failsAs_value (by simp [BlockKind.numericSlots]) fun _ => ?_)⟩
    exact failsAs_number List.mem_cons_self fun _ => failsAs_nil _
  | repeatTimes =>
    simp only [Plan.statement, hk]
    refine ⟨_, rfl, refuses_repeatTimes ?_⟩
    exact failsAs_number List.mem_cons_self fun _ => failsAs_nil _
  | changeVariableBy =>
    simp only [Plan.statement, hk, Plan.named] at hmem ⊢
    split at hmem
    · exact ⟨_, rfl, refuses_act (failsAs_number List.mem_cons_self fun _ => failsAs_nil _)⟩
    · cases hmem
  | _ => simp [hk, BlockKind.numericSlots] at hslot

theorem nodup_values (b : Block) : (Plan.statement b).values.Nodup := by
  have hone : ∀ slot : String, [slot].Nodup :=
    fun _ => List.nodup_cons.2 ⟨List.not_mem_nil, List.nodup_nil⟩
  unfold Plan.statement
  cases b.kind with
  | goToXY | sayForSecs | thinkForSecs | broadcastAndWait => simp [Plan.actTwo, Plan.two]
  | glideSecsToXY =>
    show ["SECS", "X", "Y"].Nodup
    decide
  | moveSteps | turnRight | turnLeft | changeXBy | setX | changeYBy | setY | pointInDirection | say
  | think | switchCostumeTo | switchBackdropTo | changeSizeBy | setSizeTo | playSound
  | playSoundUntilDone | broadcast | wait | repeatTimes | ifThen | ifElse | waitUntil
  | repeatUntil => exact hone _
  | setVariableTo | changeVariableBy =>
    simp only [Plan.named]
    split
    · exact hone _
    · exact List.nodup_nil
  | showVariable | hideVariable =>
    simp only [Plan.named]
    split <;> exact List.nodup_nil
  | _ => exact List.nodup_nil

section Statement

variable (chain : Option String → Step (List Stmt)) (input : Block → String → Step Expr) (b : Block)
  (p : Progress)

/-- What the block's value slots hold, in the order in which it looks into them. -/
def held : List (String × Expr) :=
  ((slotExprs (input b) (Plan.statement b).values).run p).1

theorem statement_eq_build :
    ∃ value body, ((statement chain input b).run p).1 = (Plan.statement b).build value body ∧
      held input b p = (Plan.statement b).values.map fun slot => (slot, value slot) := by
  rw [Plan.statement_eq chain input b (fun _ => .literal (.number 0)) fun _ => []]
  refine ⟨_, _, rfl, ?_⟩
  rw [held, run_slotExprs (nodup_values b) (fun _ => .literal (.number 0)) p]
  rfl

variable {b} {self : Self} {m : Machine}

theorem statement_refuses (hself : self.entity < m.world.entities.length) (hleft : b.kind ≠ .turnLeft)
    {values : List (String × Value)} {random : SplitMix} {slot text : String}
    (hvalues : (evalSlots m.world self.entity (held input b p)).run.run m.random =
      (.ok values, random))
    (hslot : slot ∈ b.kind.numericSlots) (hmem : (slot, .text text) ∈ values)
    (htext : Text.NoNumber text) :
    ∃ s argument value random, ((statement chain input b).run p).1 = synced s ∧
      argument ∈ b.kind.numericSlots ∧ (argument, .text value) ∈ values ∧ Text.NoNumber value ∧
      exec self m s = .ended { m.counted with random } (.failed (.invalidNumber argument value)) := by
  obtain ⟨value, body, hbuild, hheld⟩ := statement_eq_build chain input b p
  have hnamed : slot ∈ (Plan.statement b).values := by
    have hname : slot ∈ values.map (·.1) := List.mem_map_of_mem (f := (·.1)) hmem
    rw [names_of_evalSlots hvalues, hheld, List.map_map] at hname
    obtain ⟨other, hother, rfl⟩ := List.mem_map.1 hname
    exact hother
  obtain ⟨s, hs, hrefuses⟩ := refuses_build hslot hleft hnamed value body hself
  obtain ⟨argument, wrong, random', hnumeric, hin, hno, hcheck⟩ :=
    checkSlots_refuses hvalues hslot hmem htext
  rw [hheld] at hcheck
  exact ⟨s, argument, wrong, random', hbuild.trans hs, hnumeric, hin, hno, hrefuses _ _ hcheck⟩

/-! ### Turning to the left -/

theorem rotate_ne_invalidNumber (w : World) (id : EntityId) (degrees : Float)
    (argument value : String) : w.rotate id degrees ≠ .error (.invalidNumber argument value) := by
  have hfinite : ∀ x what, World.checkFinite x what ≠ .error (.invalidNumber argument value) := by
    intro x what h
    unfold World.checkFinite at h
    split at h <;> cases h
  have hentity : w.entity id ≠ .error (.invalidNumber argument value) := by
    intro h
    unfold World.entity at h
    split at h <;> cases h
  intro h
  rcases World.error_of_bind h with h | ⟨_, _, h⟩
  · exact hfinite _ _ h
  rcases World.error_of_bind h with h | ⟨_, _, h⟩
  · exact hentity h
  rcases World.error_of_bind h with h | ⟨_, _, h⟩
  · exact hfinite _ _ h
  rcases World.error_of_bind h with h | ⟨_, _, h⟩
  · exact hentity h
  cases h

/-- What comes out of an operator is a number, whatever goes in. -/
theorem run_evalNumber_arith {w : World} {id : EntityId} (h : id < w.entities.length)
    (op : ArithOp) (x y : Expr) (argument : String) (r : SplitMix) :
    ∃ z r', ((Expr.arith op x y).evalNumber w id argument).run.run r = (.ok z, r') := by
  obtain ⟨a, r₁, ha⟩ := x.total_eval h r
  obtain ⟨b, r₂, hb⟩ := y.total_eval h r₁
  refine ⟨_, r₂, run_evalNumber (v := .number (op.apply a.toNumber b.toNumber)) argument ?_⟩
  simp only [Expr.eval, run_bind, ha, hb]
  rfl

theorem turnLeft_takes_anything (hself : self.entity < m.world.entities.length) (e : Expr) (n : Machine)
    (argument value : String) :
    exec self m (.act (.rotate (.arith .sub (.literal (.number 0)) e))) ≠
      .ended n (.failed (.invalidNumber argument value)) := by
  obtain ⟨degrees, random, hdegrees⟩ := run_evalNumber_arith hself .sub
    (.literal (.number 0)) e "DEGREES" m.random
  intro h
  simp only [exec, act_eq, Machine.eval, Action.run, run_bind, counted, hdegrees] at h
  cases hrotate : m.world.rotate self.entity degrees with
  | ok w =>
    rw [hrotate] at h
    exact follow_ne_failed { m.counted with random, world := w } self .proceed _ _ h
  | error err =>
    rw [hrotate] at h
    cases h
    exact rotate_ne_invalidNumber _ _ _ _ _ hrotate

end Statement

/-! ### All numeric slots -/

/-- Whatever the slots of a block hold, in a slot for a number a text that is none makes the
statement fail, with nothing changed. Only the block that turns to the left takes any text. -/
theorem numeric_slots_are_strict (chain : Option String → Step (List Stmt))
    (input : Block → String → Step Expr) (b : Block) (p : Progress) (self : Self) (m : Machine)
    (hself : self.entity < m.world.entities.length) :
    (∃ values random, (evalSlots m.world self.entity (held input b p)).run.run m.random =
        (.ok values, random) ∧
      (b.kind ≠ .turnLeft → ∀ slot ∈ b.kind.numericSlots, ∀ text, (slot, .text text) ∈ values →
        Text.NoNumber text →
        ∃ s argument value random, ((statement chain input b).run p).1 = synced s ∧
          argument ∈ b.kind.numericSlots ∧ (argument, .text value) ∈ values ∧
          Text.NoNumber value ∧ exec self m s =
            .ended { m.counted with random } (.failed (.invalidNumber argument value)))) ∧
    (b.kind = .turnLeft → ∃ s, ((statement chain input b).run p).1 = synced s ∧
      ∀ n argument value, exec self m s ≠ .ended n (.failed (.invalidNumber argument value))) := by
  obtain ⟨values, random, hvalues⟩ := total_evalSlots hself (held input b p) m.random
  refine ⟨⟨values, random, hvalues, fun hleft slot hslot text hmem htext => ?_⟩, fun hleft => ?_⟩
  · exact statement_refuses chain input p hself hleft hvalues hslot hmem htext
  · obtain ⟨value, body, hbuild, _⟩ := statement_eq_build chain input b p
    rw [hbuild]
    simp only [Plan.statement, hleft]
    exact ⟨_, rfl, turnLeft_takes_anything hself _⟩

namespace Sample

def turning (opcode : String) : Block :=
  { Block.ofOpcode "turn" opcode with valueSlots := .ofList [("DEGREES", some "angle")] }

def angle : Block :=
  { Block.ofOpcode "angle" "text" with fields := .ofList [("TEXT", .text "abc")] }

def find (id : String) : Option Block :=
  if id = "angle" then some angle else none

end Sample

theorem numeric_slots_are_strict_sample :
    let b := Sample.turning "motion_turnright"
    let m := Machine.Sample.machine
    ∃ s random, ((statement (chain Sample.find 2) (input Sample.find 2) b).run ⟨[], []⟩).1 = synced s ∧
      exec ⟨1, 0⟩ m s =
        .ended { m.counted with random } (.failed (.invalidNumber "DEGREES" "abc")) := by
  obtain ⟨⟨values, random, hvalues, h⟩, _⟩ := numeric_slots_are_strict (chain Sample.find 2)
    (input Sample.find 2) (Sample.turning "motion_turnright") ⟨[], []⟩ ⟨1, 0⟩
    Machine.Sample.machine (by decide)
  have hheld : (evalSlots Machine.Sample.machine.world 0 (held (input Sample.find 2)
      (Sample.turning "motion_turnright") ⟨[], []⟩)).run.run Machine.Sample.machine.random =
      (.ok [("DEGREES", .text "abc")], Machine.Sample.machine.random) := rfl
  cases hvalues.symm.trans hheld
  obtain ⟨s, argument, value, random, hs, _, hmem, _, hexec⟩ := h (by decide +kernel) "DEGREES"
    (by decide +kernel) "abc" List.mem_cons_self ⟨by decide +kernel, by decide +kernel⟩
  cases List.mem_singleton.1 hmem
  exact ⟨s, random, hs, hexec⟩

theorem turn_left_takes_text :
    ¬ ∀ (chain : Option String → Step (List Stmt)) (input : Block → String → Step Expr) (b : Block)
      (p : Progress) (self : Self) (m : Machine), self.entity < m.world.entities.length →
      ∀ values random, (evalSlots m.world self.entity (held input b p)).run.run m.random =
        (.ok values, random) →
      ∀ slot ∈ b.kind.numericSlots, ∀ text, (slot, .text text) ∈ values → Text.NoNumber text →
      ∃ s argument value random, ((statement chain input b).run p).1 = synced s ∧
        exec self m s = .ended { m.counted with random } (.failed (.invalidNumber argument value)) := by
  intro h
  obtain ⟨s, argument, value, random, hs, hexec⟩ := h (chain Sample.find 2) (input Sample.find 2)
    (Sample.turning "motion_turnleft") ⟨[], []⟩ ⟨1, 0⟩ Machine.Sample.machine (by decide)
    [("DEGREES", .text "abc")] Machine.Sample.machine.random rfl "DEGREES" (by decide +kernel) "abc"
    List.mem_cons_self ⟨by decide +kernel, by decide +kernel⟩
  have hcompiled : ((statement (chain Sample.find 2) (input Sample.find 2)
      (Sample.turning "motion_turnleft")).run ⟨[], []⟩).1 =
      [.act (.rotate (.arith .sub (.literal (.number 0)) (.literal (.text "abc"))))] := rfl
  rw [hcompiled, synced] at hs
  split at hs
  · cases hs
  · cases hs
    exact turnLeft_takes_anything (by decide) _ _ _ _ hexec

end Compile

end SpriteStage
