import SpriteStage.Proofs.Script.Refusal

/-!
What expressions see of the mouse.

An expression that does not ask for the mouse by its form has the same value wherever the mouse is,
unless it looks for something under a name that it computes and the name comes out as that of the
mouse (`eval_eq_of_readsMouse_eq_false`). Such a name is found only when the script runs, so the
form of an expression does not tell.
-/

namespace SpriteStage

/-! ### Worlds that differ in the mouse -/

namespace World

variable (w : World) (p : Stage.Point Float) (id : EntityId)

theorem query_mouse {q : Query} (h : q.readsMouse = false) :
    { w with mouse := p }.query id q = w.query id q := by
  cases q with
  | mouseX | mouseY => cases h
  | _ => rfl

theorem touching_mouse {target : String} (h : target ≠ mouseTarget) :
    { w with mouse := p }.touching id target = w.touching id target := by
  unfold touching
  simp only [if_neg h]
  rfl

theorem distanceTo_mouse {target : String} (h : target ≠ mouseTarget) :
    { w with mouse := p }.distanceTo id target = w.distanceTo id target := by
  unfold distanceTo place?
  simp only [if_neg h]
  rfl

end World

theorem Eval.bind_congr {α β : Type} {x : Eval α} {f g : α → Eval β} {P : α → Prop}
    (hx : x.Ensures P) (hfg : ∀ a, P a → f a = g a) : x >>= f = x >>= g := by
  apply ExceptT.ext
  funext r
  show (x >>= f).run.run r = (x >>= g).run.run r
  rw [run_bind, run_bind]
  cases hr : x.run.run r with
  | mk result random =>
    cases result with
    | error e => rfl
    | ok a =>
      have ha : P a := hx r a random hr
      simp only [hfg a ha]

namespace Expr

/-! ### Names that are computed -/

def isLiteral : Expr → Bool
  | .literal _ => true
  | _ => false

/-- What the expression looks for under a name that no literal gives. -/
def computedTargets : Expr → List Expr
  | .literal _ | .var _ | .sense _ => []
  | .touching target | .distanceTo target =>
    (if target.isLiteral then [] else [target]) ++ target.computedTargets
  | .not a | .lengthOf a | .round a | .math _ a | .keyPressed a => a.computedTargets
  | .arith _ a b | .compare _ a b | .and a b | .or a b | .join a b | .letterOf a b | .contains a b
  | .random a b => a.computedTargets ++ b.computedTargets

/-- No computed name comes out as that of the mouse, whatever random numbers are drawn. -/
def MissesMouse (w : World) (id : EntityId) (e : Expr) : Prop :=
  ∀ target ∈ e.computedTargets, (target.eval w id).Ensures fun v => v.toText ≠ mouseTarget

section

variable {w : World} {id : EntityId}

theorem MissesMouse.left {a b e : Expr} (h : e.MissesMouse w id)
    (he : e.computedTargets = a.computedTargets ++ b.computedTargets) : a.MissesMouse w id :=
  fun target ht => h target (he ▸ List.mem_append_left _ ht)

theorem MissesMouse.right {a b e : Expr} (h : e.MissesMouse w id)
    (he : e.computedTargets = a.computedTargets ++ b.computedTargets) : b.MissesMouse w id :=
  fun target ht => h target (he ▸ List.mem_append_right _ ht)

/-- A name that is given or computed misses the mouse, and so does what is computed inside of it. -/
theorem MissesMouse.target {target e : Expr} (h : e.MissesMouse w id)
    (he : e.computedTargets = (if target.isLiteral then [] else [target]) ++ target.computedTargets)
    (hnames : target.namesMouse = false) :
    target.MissesMouse w id ∧ (target.eval w id).Ensures fun v => v.toText ≠ mouseTarget := by
  refine ⟨fun inner hinner => h inner (he ▸ List.mem_append_right _ hinner), ?_⟩
  cases hliteral : target.isLiteral with
  | false =>
    refine h target (he ▸ List.mem_append_left _ ?_)
    rw [hliteral]
    exact List.mem_singleton.2 rfl
  | true =>
    cases target with
    | literal value => exact Eval.ensures_pure (by simpa [namesMouse] using hnames)
    | _ => cases hliteral

theorem eval_eq_of_readsMouse_eq_false (p : Stage.Point Float) {e : Expr}
    (hread : e.readsMouse = false) (hmiss : e.MissesMouse w id) :
    e.eval { w with mouse := p } id = e.eval w id := by
  induction e with
  | literal value | var name => rfl
  | sense query => exact congrArg Eval.ofExcept (w.query_mouse p id hread)
  | not a ih | lengthOf a ih | round a ih | math f a ih => simp only [eval, ih hread hmiss]
  | keyPressed a ih =>
    simp only [eval, ih hread hmiss]
    rfl
  | arith op a b iha ihb | compare op a b iha ihb | and a b iha ihb | or a b iha ihb
  | join a b iha ihb | letterOf a b iha ihb | contains a b iha ihb | random a b iha ihb =>
    obtain ⟨ha, hb⟩ := Bool.or_eq_false_iff.1 hread
    simp only [eval, iha ha (hmiss.left rfl), ihb hb (hmiss.right rfl)]
  | touching target ih =>
    obtain ⟨hnames, hinner⟩ := Bool.or_eq_false_iff.1 hread
    obtain ⟨hmiss, htarget⟩ := hmiss.target rfl hnames
    simp only [eval, ih hinner hmiss]
    refine Eval.bind_congr htarget fun v hv => ?_
    rw [w.touching_mouse p id hv]
  | distanceTo target ih =>
    obtain ⟨hnames, hinner⟩ := Bool.or_eq_false_iff.1 hread
    obtain ⟨hmiss, htarget⟩ := hmiss.target rfl hnames
    simp only [eval, ih hinner hmiss]
    refine Eval.bind_congr htarget fun v hv => ?_
    rw [w.distanceTo_mouse p id hv]

end

/-! ### The theorem -/

/-- In two worlds that differ in the mouse alone, an expression that does not ask for the mouse by
its form comes to the same result and draws the same random numbers, if no name that it computes
comes out as that of the mouse. -/
theorem value_ignores_mouse {w w' : World} (hw : w' = { w with mouse := w'.mouse }) {e : Expr}
    {id : EntityId} (hread : e.readsMouse = false) (hmiss : e.MissesMouse w id) (r : SplitMix) :
    (e.eval w' id).run.run r = (e.eval w id).run.run r := by
  rw [hw, eval_eq_of_readsMouse_eq_false w'.mouse hread hmiss]

namespace Sample

/-- An entity in the middle of the stage, and a variable that names what it looks for. -/
def stage (goal : String) : World :=
  { World.empty 0 with
    entities := [⟨"cat", .sprite, 0, 0, 90, 1, true, [], 0, [], .empty, 0⟩]
    globals := .ofList [("goal", ⟨.text goal, false, none⟩)] }

def seeking : Expr :=
  .touching (.var "goal")

def away (w : World) : World :=
  { w with mouse := ⟨100, 50⟩ }

end Sample

theorem value_ignores_mouse_sample :
    Sample.seeking.readsMouse = false ∧ Sample.seeking.MissesMouse (Sample.stage "dog") 0 ∧
      (Sample.seeking.eval (Sample.away (Sample.stage "dog")) 0).run.run ⟨7⟩ =
        (Sample.seeking.eval (Sample.stage "dog") 0).run.run ⟨7⟩ := by
  have hmiss : Sample.seeking.MissesMouse (Sample.stage "dog") 0 := by
    intro target htarget
    cases List.mem_singleton.1 htarget
    exact Eval.ensures_pure (by decide +kernel)
  exact ⟨rfl, hmiss, value_ignores_mouse rfl rfl hmiss ⟨7⟩⟩

/-- The name of the mouse in a variable: the expression does not ask for the mouse by its form, but
its value depends on where the mouse is. -/
theorem computed_target_sees_mouse :
    ¬ ∀ (e : Expr) (w : World) (id : EntityId) (p : Stage.Point Float), e.readsMouse = false →
      e.eval { w with mouse := p } id = e.eval w id := by
  intro h
  have heq : Sample.seeking.eval (Sample.away (Sample.stage mouseTarget)) 0 =
      Sample.seeking.eval (Sample.stage mouseTarget) 0 :=
    h Sample.seeking (Sample.stage mouseTarget) 0 ⟨100, 50⟩ rfl
  have hnear : ((Sample.seeking.eval (Sample.stage mouseTarget) 0).run.run ⟨7⟩).1.toOption =
      some (.bool true) := by
    decide +kernel
  have hfar : ((Sample.seeking.eval (Sample.away (Sample.stage mouseTarget)) 0).run.run
      ⟨7⟩).1.toOption = some (.bool false) := by
    decide +kernel
  rw [heq, hnear] at hfar
  cases hfar

end Expr

end SpriteStage
