import SpriteStage.Script.Eval

/-!
Results and failures.

What can come of a computation is said of its results and its failures together (`Meets`), and built
up along its binds. For an entity that exists every expression has a value (`Expr.total_eval`), so a
failure says that there is no such entity only if there is none (`World.Refuses`). The wording of a
failure shows whether it is of this kind (`ScriptError.Known.message_ne`).
-/

namespace SpriteStage

/-- The failure is about something else than an entity that does not exist. -/
def ScriptError.Known (e : ScriptError) : Prop :=
  ∀ id, e ≠ .unknownEntity id

/-! ### Wordings -/

theorem head?_append_literal (x y : String) {c : Char} (h : x.toList.head? = some c) :
    (x ++ y).toList.head? = some c := by
  rw [String.toList_append, List.head?_append, h]
  rfl

theorem getLast?_append_literal (x y : String) {c : Char} (h : y.toList.getLast? = some c) :
    (x ++ y).toList.getLast? = some c := by
  rw [String.toList_append, List.getLast?_append, h]
  rfl

-- All other wordings begin with another letter, but for one that begins with anything and has
-- another end.
theorem ScriptError.Known.message_ne {e : ScriptError} (h : e.Known) (id : EntityId) :
    e.message ≠ (ScriptError.unknownEntity id).message := by
  intro he
  have hhead : e.message.toList.head? = some 'e' := by
    rw [he]
    exact head?_append_literal _ _ (head?_append_literal _ _ rfl)
  have hlast : e.message.toList.getLast? = some 't' := by
    rw [he]
    exact getLast?_append_literal _ _ rfl
  have hother : ∀ c, e.message.toList.head? = some c → c = 'e' := by
    intro c hc
    exact Option.some.inj (hc.symm.trans hhead)
  cases e with
  | unknownEntity other => exact h other rfl
  | nonFinite what =>
    have hend := getLast?_append_literal what " must be a finite number" (c := 'r') rfl
    cases Option.some.inj (hend.symm.trans hlast)
  | invalidNumber argument value =>
    have hbegin := head?_append_literal "argument " argument (c := 'a') rfl
    have hmore := head?_append_literal _ " expects a number, got '" hbegin
    cases hother 'a' (head?_append_literal _ _ (head?_append_literal _ _ hmore))
  | unknownCostume name | unknownBackdrop name | unknownSound name =>
    cases hother 'u' (head?_append_literal _ _ (head?_append_literal _ _ rfl))
  | noBackground => cases hother 't' rfl

/-! ### Results and failures -/

section Except

variable {α β : Type} {P : α → Prop} {E : ScriptError → Prop}

/-- The result satisfies `P`, or the failure `E`. -/
def Meets (x : Except ScriptError α) (P : α → Prop) (E : ScriptError → Prop) : Prop :=
  match x with
  | .ok a => P a
  | .error e => E e

namespace Meets

variable {x : Except ScriptError α}

theorem of_ok {a : α} (h : Meets x P E) (hx : x = .ok a) : P a := by
  rw [hx] at h
  exact h

theorem bind {f : α → Except ScriptError β} {Q : β → Prop} (hx : Meets x P E)
    (hf : ∀ a, P a → Meets (f a) Q E) : Meets (x >>= f) Q E := by
  cases x with
  | ok a => exact hf a hx
  | error e => exact hx

end Meets

end Except

namespace Eval

variable {α β : Type} {x : Eval α} {P : α → Prop} {E : ScriptError → Prop}

theorem run_bind (x : Eval α) (f : α → Eval β) (r : SplitMix) :
    (x >>= f).run.run r =
      match x.run.run r with
      | (.ok a, r) => (f a).run.run r
      | (.error e, r) => (.error e, r) := by
  show (ExceptT.bindCont f (x.run.run r).1).run (x.run.run r).2 = _
  cases x.run.run r with
  | mk result random => cases result <;> rfl

/-- Whatever is drawn, the result satisfies `P`, or the failure `E`. -/
def Meets (x : Eval α) (P : α → Prop) (E : ScriptError → Prop) : Prop :=
  ∀ r, SpriteStage.Meets (x.run.run r).1 P E

theorem meets_pure {a : α} (h : P a) : Meets (pure a) P E :=
  fun _ => h

theorem meets_throw {e : ScriptError} (h : E e) : Meets (throw e) P E :=
  fun _ => h

theorem meets_ofExcept {x : Except ScriptError α} (h : SpriteStage.Meets x P E) :
    (ofExcept x).Meets P E :=
  fun _ => h

theorem meets_draw (f : SplitMix → α × SplitMix) : (draw f).Meets (fun _ => True) E :=
  fun _ => trivial

theorem Meets.bind {f : α → Eval β} {Q : β → Prop} (hx : x.Meets P E)
    (hf : ∀ a, P a → (f a).Meets Q E) : (x >>= f).Meets Q E := by
  intro r
  have hr := hx r
  rw [run_bind]
  cases hx : x.run.run r with
  | mk result r' =>
    rw [hx] at hr
    cases result with
    | ok a => exact hf a hr r'
    | error e => exact hr

/-- Every result of the computation satisfies `P`; a failure has no result. -/
def Ensures (x : Eval α) (P : α → Prop) : Prop :=
  ∀ r a r', x.run.run r = (.ok a, r') → P a

theorem Meets.ensures (h : x.Meets P E) : x.Ensures P :=
  fun r _ _ hr => (h r).of_ok (congrArg Prod.fst hr)

theorem ensures_pure {a : α} (h : P a) : Ensures (pure a) P :=
  (meets_pure (E := fun _ => True) h).ensures

/-- Whatever is drawn, there is a result. -/
def Total (x : Eval α) : Prop :=
  ∀ r, ∃ a r', x.run.run r = (.ok a, r')

theorem total_pure (a : α) : Total (pure a : Eval α) :=
  fun r => ⟨a, r, rfl⟩

theorem total_draw (f : SplitMix → α × SplitMix) : (draw f).Total :=
  fun r => ⟨(f r).1, (f r).2, rfl⟩

theorem total_ofExcept {x : Except ScriptError α} {a : α} (h : x = .ok a) : (ofExcept x).Total := by
  rw [h]
  exact fun r => ⟨a, r, rfl⟩

theorem total_bind {f : α → Eval β} (hx : x.Total) (hf : ∀ a, (f a).Total) : (x >>= f).Total := by
  intro r
  obtain ⟨a, r', ha⟩ := hx r
  rw [run_bind, ha]
  exact hf a r'

end Eval

open Eval

/-! ### Expressions -/

section Entity

variable {w : World} {id : EntityId}

theorem World.entity_of_lt (h : id < w.entities.length) : ∃ e, w.entity id = .ok e :=
  ⟨w.entities[id], entity_eq_ok_iff.2 (List.getElem?_eq_getElem h)⟩

theorem World.query_of_lt (h : id < w.entities.length) (q : Query) : ∃ v, w.query id q = .ok v := by
  obtain ⟨e, he⟩ := entity_of_lt h
  simp only [query, he]
  exact ⟨_, rfl⟩

theorem World.touching_of_lt (h : id < w.entities.length) (target : String) :
    ∃ b, w.touching id target = .ok b := by
  obtain ⟨e, he⟩ := entity_of_lt h
  simp only [touching, he, bind, Except.bind]
  split
  · exact ⟨_, rfl⟩
  · split
    · exact ⟨_, rfl⟩
    · split
      · exact ⟨_, rfl⟩
      · split <;> exact ⟨_, rfl⟩

theorem World.distanceTo_of_lt (h : id < w.entities.length) (target : String) :
    ∃ x, w.distanceTo id target = .ok x := by
  obtain ⟨e, he⟩ := entity_of_lt h
  simp only [distanceTo, he]
  exact ⟨_, rfl⟩

theorem Expr.total_eval (h : id < w.entities.length) (e : Expr) : (e.eval w id).Total := by
  induction e with
  | literal value => exact total_pure value
  | var name => exact total_pure _
  | arith _ _ _ ihl ihr | compare _ _ _ ihl ihr | join _ _ ihl ihr | letterOf _ _ ihl ihr
  | contains _ _ ihl ihr =>
    exact total_bind ihl fun a => total_bind ihr fun b => total_pure _
  | random low high ihl ihr =>
    refine total_bind ihl fun a => total_bind ihr fun b => ?_
    exact total_bind (total_draw _) fun x => total_pure _
  | and left right ihl ihr =>
    refine total_bind ihl fun a => ?_
    split
    · exact total_bind ihr fun b => total_pure _
    · exact total_pure _
  | or left right ihl ihr =>
    refine total_bind ihl fun a => ?_
    split
    · exact total_pure _
    · exact total_bind ihr fun b => total_pure _
  | not _ ih | lengthOf _ ih | round _ ih | math _ _ ih | keyPressed _ ih =>
    exact total_bind ih fun a => total_pure _
  | sense query =>
    obtain ⟨v, hv⟩ := w.query_of_lt h query
    exact total_ofExcept hv
  | touching target ih =>
    refine total_bind ih fun t => ?_
    obtain ⟨b, hb⟩ := w.touching_of_lt h t.toText
    exact total_bind (total_ofExcept hb) fun _ => total_pure _
  | distanceTo target ih =>
    refine total_bind ih fun t => ?_
    obtain ⟨x, hx⟩ := w.distanceTo_of_lt h t.toText
    exact total_bind (total_ofExcept hx) fun _ => total_pure _

/-- If the entity exists, the failure does not say that it does not. -/
def World.Refuses (w : World) (id : EntityId) (e : ScriptError) : Prop :=
  id < w.entities.length → e.Known

theorem Meets.refuses {α : Type} {x : Except ScriptError α} {P : α → Prop}
    (h : Meets x P (w.Refuses id)) (hid : id < w.entities.length) (other : EntityId) :
    Meets x P (w.Refuses other) := by
  cases x with
  | ok a => exact h
  | error e => exact fun _ => h hid

theorem World.meets_entity (w : World) (id : EntityId) :
    Meets (w.entity id) (fun e => w.entity id = .ok e) (w.Refuses id) := by
  cases he : w.entity id with
  | ok e => rfl
  | error error =>
    intro h
    obtain ⟨e, he'⟩ := entity_of_lt h
    rw [he] at he'
    cases he'

theorem Expr.meets_eval (w : World) (id : EntityId) (e : Expr) :
    (e.eval w id).Meets (fun _ => True) (w.Refuses id) := by
  intro r
  cases hr : (e.eval w id).run.run r with
  | mk result r' =>
    cases result with
    | ok v => trivial
    | error error =>
      intro h
      obtain ⟨v, r', hv⟩ := e.total_eval h r
      rw [hr] at hv
      cases hv

theorem Expr.meets_evalNumber (w : World) (id : EntityId) (argument : String) (e : Expr) :
    (e.evalNumber w id argument).Meets (fun _ => True) (w.Refuses id) := by
  refine (e.meets_eval w id).bind fun v _ => meets_ofExcept ?_
  unfold Value.asArgument
  split
  · trivial
  · exact fun _ => nofun

end Entity

end SpriteStage
