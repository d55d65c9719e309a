import SpriteStage.Proofs.Compile.Footprint

/-!
What a step complains of.

A property of complaints that every part of a step keeps to is kept by the whole step
(`Step.Complains`). So nothing under a hat, whatever the links do there, is a complaint about hats
(`complains_body`): these come from filing the scripts alone.
-/

namespace SpriteStage.Compile

namespace Step

variable {α β : Type} {P : Complaint → Prop}

/-- Whatever was noted before, all that the step adds satisfies `P`. -/
def Complains (x : Step α) (P : Complaint → Prop) : Prop :=
  ∀ p, ∀ c ∈ (x.run p).2.complaints, c ∈ p.complaints ∨ P c.2

theorem complains_pure (a : α) : Complains (pure a) P :=
  fun _ _ => .inl

theorem complains_bind {x : Step α} {f : α → Step β} (hx : x.Complains P)
    (hf : ∀ a, (f a).Complains P) : Complains (x >>= f) P := by
  intro p c hc
  exact (hf _ _ c hc).elim (hx p c) .inr

theorem complains_complain (id : String) {c : Complaint} (h : P c) :
    (complain id c).Complains P := by
  intro p c' hc'
  refine (List.mem_append.1 hc').imp_right fun hnew => ?_
  cases List.mem_singleton.1 hnew
  exact h

theorem complains_visit (id : String) : (visit id).Complains P := by
  intro p c hc
  have hsame : ((visit id).run p).2.complaints = p.complaints := by
    simp only [visit, StateT.run_bind, StateT.run_get, pure_bind]
    split <;> rfl
  rw [hsame] at hc
  exact .inl hc

theorem complains_gather {ask : String → Step β} (hask : ∀ slot, (ask slot).Complains P)
    (slots : List String) (f : String → β) : (Plan.gather ask slots f).Complains P := by
  induction slots with
  | nil => exact complains_pure f
  | cons slot rest ih =>
    exact complains_bind (hask slot) fun _ => complains_bind ih fun _ => complains_pure _

theorem complains_faults (id : String) {faults : List Complaint} (h : ∀ c ∈ faults, P c) :
    Complains (faults.forM (complain id)) P := by
  induction faults with
  | nil => exact complains_pure ()
  | cons c rest ih =>
    refine complains_bind (complains_complain id (h c List.mem_cons_self)) fun _ => ih ?_
    exact fun other hother => h other (List.mem_cons_of_mem c hother)

end Step

open Step

theorem complains_carryOut {α : Type} {P : Complaint → Prop} {plan : Plan α}
    (hplan : ∀ c ∈ plan.faults, P c) {chain : Option String → Step (List Stmt)}
    {input : Block → String → Step Expr} {b : Block} (hinput : ∀ slot, (input b slot).Complains P)
    (hchain : ∀ start, (chain start).Complains P) (value : String → Expr)
    (body : String → List Stmt) : (plan.carryOut chain input b value body).Complains P := by
  refine complains_bind (complains_gather hinput _ _) fun _ => ?_
  refine complains_bind (complains_gather (fun _ => hchain _) _ _) fun _ => ?_
  exact complains_bind (complains_faults b.id hplan) fun _ => complains_pure _

/-! ### Under a hat -/

def OffHats (c : Complaint) : Prop :=
  c.aboutHat = false

theorem complains_defaultOf (b : Block) (slot : String) : (defaultOf b slot).Complains OffHats := by
  unfold defaultOf
  split
  · exact complains_bind (complains_complain b.id rfl) fun _ => complains_pure _
  · exact complains_pure _

theorem complains_input (lookup : String → Option Block) (fuel : Nat) (b : Block) (slot : String) :
    (input lookup fuel b slot).Complains OffHats := by
  have hdefault := complains_defaultOf b slot
  induction fuel generalizing b slot with
  | zero =>
    rw [input]
    exact hdefault
  | succ fuel ih =>
    rw [input]
    split
    · exact hdefault
    next id _ =>
      refine complains_bind (complains_visit id) fun isNew => ?_
      cases isNew with
      | false => exact complains_bind (complains_complain id rfl) fun _ => hdefault
      | true =>
        simp only [if_true]
        split
        next child _ =>
          have hreporter : (reporter (input lookup fuel) child).Complains OffHats := by
            rw [Plan.reporter_eq (fun _ => pure []) _ _ (fun _ => .literal default) fun _ => []]
            refine complains_carryOut (fun c hc => ((Plan.tidy_reporter child).faults c hc).2)
              (fun slot => ih child slot (complains_defaultOf child slot)) ?_ _ _
            exact fun _ => complains_pure []
          refine complains_bind hreporter fun value => ?_
          cases value with
          | some e => exact complains_pure e
          | none => exact hdefault
        · exact complains_bind (complains_complain id rfl) fun _ => hdefault

theorem complains_chain (lookup : String → Option Block) (fuel : Nat) (start : Option String) :
    (chain lookup fuel start).Complains OffHats := by
  induction fuel generalizing start with
  | zero => cases start <;> exact complains_pure []
  | succ fuel ih =>
    cases start with
    | none => exact complains_pure []
    | some id =>
      rw [chain]
      refine complains_bind (complains_visit id) fun isNew => ?_
      cases isNew with
      | false => exact complains_bind (complains_complain id rfl) fun _ => complains_pure []
      | true =>
        simp only [if_true]
        split
        next b _ =>
          have hstatement : (statement (chain lookup fuel) (input lookup fuel) b).Complains
              OffHats := by
            rw [Plan.statement_eq _ _ b (fun _ => .literal default) fun _ => []]
            exact complains_carryOut (fun c hc => ((Plan.tidy_statement b).faults c hc).2)
              (complains_input lookup fuel b) ih _ _
          refine complains_bind hstatement fun _ => ?_
          exact complains_bind (ih b.next) fun _ => complains_pure _
        · exact complains_bind (complains_complain id rfl) fun _ => complains_pure []

theorem complains_body (lookup : String → Option Block) (fuel : Nat) (hat : Block) :
    ∀ c ∈ (body lookup fuel hat).2, c.2.aboutHat = false :=
  fun c hc => (complains_chain lookup fuel hat.next ⟨[hat.id], []⟩ c hc).resolve_left nofun

end SpriteStage.Compile
