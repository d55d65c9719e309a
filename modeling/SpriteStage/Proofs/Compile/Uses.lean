import SpriteStage.Proofs.Block.Links
import SpriteStage.Proofs.Compile.Footprint
import SpriteStage.Proofs.Compile.Grammar

/-!
How much a script can hold.

A script is put together from uses of blocks, each as a statement or as a reporter (`Held`, `Made`).
A block counts as met before it is used, so no block is used twice in a script, and one use adds at
most four nodes (`Plan.light_statement`, `Plan.light_reporter`). However the links share blocks or
run in circles, a script is not larger than four times its tree.
-/

namespace SpriteStage

/-! ### Nodes -/

def Expr.nodes : Expr → Nat
  | .literal _ | .var _ | .sense _ => 1
  | .not a | .lengthOf a | .round a | .math _ a | .keyPressed a | .touching a | .distanceTo a =>
    1 + a.nodes
  | .arith _ a b | .compare _ a b | .and a b | .or a b | .join a b | .letterOf a b | .contains a b
  | .random a b => 1 + a.nodes + b.nodes

mutual
/-- The number of statements and expressions in a statement, itself among them, at all depths. -/
def Stmt.nodes : Stmt → Nat
  | .act action => 1 + (action.exprs.map Expr.nodes).sum
  | .waitUntil condition _ => 1 + condition.nodes
  | .repeatTimes times body => 1 + times.nodes + nodesOf body
  | .repeatUntil condition body => 1 + condition.nodes + nodesOf body
  | .forever body => 1 + nodesOf body
  | .branch condition thenBody elseBody =>
    1 + condition.nodes + nodesOf thenBody + nodesOf elseBody

def nodesOf : List Stmt → Nat
  | [] => 0
  | s :: rest => s.nodes + nodesOf rest
end

theorem nodesOf_append (l m : List Stmt) : nodesOf (l ++ m) = nodesOf l + nodesOf m := by
  induction l with
  | nil => simp [nodesOf]
  | cons s rest ih => simp only [List.cons_append, nodesOf, ih, Nat.add_assoc]

/-- What an expression may add to a script: its nodes, and a statement that asks for the mouse. -/
def Expr.load (e : Expr) : Nat :=
  e.nodes + e.readsMouse.toNat

theorem toNat_or_le (a b : Bool) : (a || b).toNat ≤ a.toNat + b.toNat := by
  cases a <;> cases b <;> decide

theorem Expr.nodes_add_any_le (l : List Expr) :
    (l.map Expr.nodes).sum + (l.any Expr.readsMouse).toNat ≤ (l.map Expr.load).sum := by
  induction l with
  | nil => exact Nat.le_refl 0
  | cons e rest ih =>
    have hor := toNat_or_le e.readsMouse (rest.any Expr.readsMouse)
    simp only [List.map_cons, List.sum_cons, List.any_cons, Expr.load]
    omega

namespace Compile

theorem nodesOf_synced (s : Stmt) : nodesOf (synced s) = s.nodes + s.readsMouse.toNat := by
  unfold synced
  cases s.readsMouse <;> simp [nodesOf, Stmt.nodes, Action.exprs, Nat.add_comm]

theorem nodesOf_yielding (l : List Stmt) : nodesOf (yielding l) = nodesOf l + 1 := by
  simp [yielding, nodesOf_append, nodesOf, Stmt.nodes, Action.exprs]

theorem nodesOf_resync (condition : Expr) :
    nodesOf (resync condition) = condition.readsMouse.toNat := by
  unfold resync
  cases condition.readsMouse <;> simp [nodesOf, Stmt.nodes, Action.exprs]

/-! ### What one block adds -/

namespace Plan

variable {α : Type}

/-- The plan adds at most four nodes to what its slots hold. A value slot may hold one node that no
block stands for, its default, so each of them is counted as one of the four. -/
def Light (plan : Plan α) (weigh : α → Nat) : Prop :=
  ∀ value body, weigh (plan.build value body) + plan.values.length ≤
    4 + (plan.values.map fun slot => (value slot).load).sum +
      (plan.bodies.map fun slot => nodesOf (body slot)).sum

theorem nodesOf_act_le (a : Action) :
    nodesOf (synced (.act a)) ≤ 1 + (a.exprs.map Expr.load).sum := by
  have hexprs := Expr.nodes_add_any_le a.exprs
  rw [nodesOf_synced, Stmt.nodes, Stmt.readsMouse, Stmt.exprs]
  omega

section Slots

variable {weigh : α → Nat}

theorem light_fixed {a : α} (h : weigh a ≤ 4) : (fixed a).Light weigh := by
  intro value body
  simp only [fixed, List.length_nil]
  omega

theorem light_one {slot : String} {make : Expr → α} (h : ∀ e, weigh (make e) ≤ e.load + 3) :
    (one slot make).Light weigh := by
  intro value body
  have hslot := h (value slot)
  simp only [one, List.map_cons, List.map_nil, List.sum_cons, List.sum_nil, List.length_cons,
    List.length_nil]
  omega

theorem light_two {first second : String} {make : Expr → Expr → α}
    (h : ∀ x y, weigh (make x y) ≤ x.load + y.load + 2) : (two first second make).Light weigh := by
  intro value body
  have hslots := h (value first) (value second)
  simp only [two, List.map_cons, List.map_nil, List.sum_cons, List.sum_nil, List.length_cons,
    List.length_nil]
  omega

end Slots

theorem light_perform {a : Action} (h : a.exprs = []) : (perform a).Light nodesOf := by
  have hact := nodesOf_act_le a
  simp only [h, List.map_nil, List.sum_nil] at hact
  exact light_fixed (by omega)

theorem light_act {slot : String} {make : Expr → Action}
    (h : ∀ e, ((make e).exprs.map Expr.load).sum ≤ e.load + 2) : (act slot make).Light nodesOf := by
  refine light_one fun e => ?_
  have hact := nodesOf_act_le (make e)
  have he := h e
  omega

theorem light_actTwo {first second : String} {make : Expr → Expr → Action}
    (h : ∀ x y, ((make x y).exprs.map Expr.load).sum ≤ x.load + y.load) :
    (actTwo first second make).Light nodesOf := by
  refine light_two fun x y => ?_
  have hact := nodesOf_act_le (make x y)
  have hxy := h x y
  omega

theorem light_fault (c : Complaint) {a : α} (weigh : α → Nat) (h : weigh a = 0) :
    (fault c a).Light weigh :=
  light_fixed (a := a) (by omega)

theorem light_named {b : Block} {a : α} (weigh : α → Nat) (ha : weigh a = 0)
    {plan : String → Plan α} (h : ∀ name, (plan name).Light weigh) :
    (named b a plan).Light weigh := by
  unfold named
  split
  · exact h _
  · exact light_fault _ weigh ha

theorem light_statement (b : Block) : (statement b).Light nodesOf := by
  unfold statement
  cases b.kind with
  | ifOnEdgeBounce | nextCostume | nextBackdrop | showSprite | hideSprite | stopAllSounds | stop
  | resetTimer => exact light_perform rfl
  | goToXY | sayForSecs | thinkForSecs | broadcastAndWait =>
    exact light_actTwo fun _ _ => Nat.le_refl _
  | moveSteps | turnRight | pointInDirection | say | think | switchCostumeTo | switchBackdropTo
  | changeSizeBy | setSizeTo | playSound | playSoundUntilDone | broadcast | wait =>
    exact light_act fun e => by simp [Action.exprs]
  -- These bring an expression of their own.
  | turnLeft | changeXBy | setX | changeYBy | setY =>
    refine light_act fun e => ?_
    simp only [Action.exprs, Expr.load, Expr.nodes, Expr.readsMouse, Query.readsMouse,
      List.map_cons, List.map_nil, List.sum_cons, List.sum_nil, Bool.false_or, Bool.toNat_false]
    omega
  | setVariableTo | changeVariableBy =>
    refine light_named nodesOf rfl fun name => light_act fun e => ?_
    simp [Action.exprs]
  | showVariable | hideVariable =>
    exact light_named nodesOf rfl fun name => light_perform rfl
  | glideSecsToXY =>
    intro value body
    have hact := nodesOf_act_le (.glide (value "SECS") (value "X") (value "Y"))
    simp only [Action.exprs, List.map_cons, List.map_nil, List.sum_cons, List.sum_nil,
      List.length_cons, List.length_nil] at hact ⊢
    omega
  | waitUntil | repeatTimes | forever | ifThen | ifElse | repeatUntil =>
    intro value body
    have hone := Bool.toNat_le (value "CONDITION").readsMouse
    simp only [one, nodesOf_synced, nodesOf_yielding, nodesOf_append, nodesOf_resync, Stmt.nodes,
      nodesOf, Stmt.readsMouse, Stmt.exprs, Expr.load, List.any_cons, List.any_nil, Bool.or_false,
      Bool.toNat_false, List.map_cons, List.map_nil, List.sum_cons, List.sum_nil, List.length_cons,
      List.length_nil]
    omega
  | _ => exact light_fault _ _ rfl

theorem bodies_reporter (b : Block) : (reporter b).bodies = [] := by
  unfold reporter
  cases b.kind with
  | readVariable =>
    unfold named
    cases b.fieldText? "VARIABLE" <;> rfl
  | mathOp =>
    simp only
    split <;> rfl
  | _ => rfl

def weighOption (e : Option Expr) : Nat :=
  e.elim 0 Expr.load

theorem light_reporter (b : Block) : (reporter b).Light weighOption := by
  unfold reporter
  cases b.kind with
  | mathNumber | text | menu => exact light_fixed (Nat.le_add_left 1 3)
  | readVariable =>
    exact light_named weighOption rfl fun name => light_fixed (Nat.le_add_left 1 3)
  | xPosition | yPosition | direction | size | timer | mouseX | mouseY =>
    exact light_fixed (by decide)
  | costumeNumberName | backdropNumberName =>
    cases h : asksName b <;> exact light_fixed (by decide)
  | touchingObject | distanceTo =>
    refine light_one fun e => ?_
    have hor := toNat_or_le e.namesMouse e.readsMouse
    have hone := Bool.toNat_le e.namesMouse
    simp only [weighOption, Option.elim_some, Expr.load, Expr.nodes, Expr.readsMouse]
    omega
  | keyPressed | not | length | round =>
    refine light_one fun e => ?_
    simp only [weighOption, Option.elim_some, Expr.load, Expr.nodes, Expr.readsMouse]
    omega
  | add | subtract | multiply | divide | mod | random | gt | lt | equals | and | or | join
  | letterOf | contains =>
    refine light_two fun x y => ?_
    have hor := toNat_or_le x.readsMouse y.readsMouse
    simp only [weighOption, Option.elim_some, Expr.load, Expr.nodes, Expr.readsMouse]
    omega
  | mathOp =>
    simp only
    split
    · refine light_one fun e => ?_
      simp only [weighOption, Option.elim_some, Expr.load, Expr.nodes, Expr.readsMouse]
      omega
    -- A function that is not known passes its argument through.
    · have hid : ∀ e : Expr, weighOption (some (id e)) ≤ e.load + 3 := fun e => Nat.le_add_right _ 3
      exact light_one hid
  | _ => exact light_fault _ _ rfl

end Plan

/-! ### Scripts as uses of blocks -/

inductive Role where
  | statement
  | reporter
  deriving DecidableEq, Repr

/-- A block of the tree in the place of a statement or of a value. -/
structure Use where
  block : String
  role : Role
  deriving DecidableEq, Repr

/-- `Held lookup b slot e uses`: the value slot of the block holds `e`, for which the blocks in
`uses` were translated. It is the default of the slot, or what the reporter in the slot makes of its
own slots; a reporter that makes nothing leaves the default. -/
inductive Held (lookup : String → Option Block) : Block → String → Expr → List Use → Prop where
  | default (b : Block) (slot : String) :
      Held lookup b slot (.literal (b.kind.slotDefault slot)) []
  | reporter {b child : Block} {slot id : String} {value : String → Expr}
      {uses : String → List Use} (body : String → List Stmt) (hslot : b.valueSlot? slot = some id)
      (hchild : lookup id = some child)
      (hvalue : ∀ inner ∈ (Plan.reporter child).values,
        Held lookup child inner (value inner) (uses inner)) :
      Held lookup b slot
        (((Plan.reporter child).build value body).getD (.literal (b.kind.slotDefault slot)))
        (⟨id, .reporter⟩ :: (Plan.reporter child).values.flatMap uses)

/-- `Made lookup start stmts uses`: the chain from `start` on is `stmts`, for which the blocks in
`uses` were translated. A chain may end at any link. -/
inductive Made (lookup : String → Option Block) : Option String → List Stmt → List Use → Prop where
  | nil (start : Option String) : Made lookup start [] []
  | block {id : String} {b : Block} {value : String → Expr} {body : String → List Stmt}
      {valueUses bodyUses : String → List Use} {rest : List Stmt} {restUses : List Use}
      (hb : lookup id = some b)
      (hvalue : ∀ slot ∈ (Plan.statement b).values,
        Held lookup b slot (value slot) (valueUses slot))
      (hbody : ∀ slot ∈ (Plan.statement b).bodies,
        Made lookup (b.statementSlot? slot) (body slot) (bodyUses slot))
      (hrest : Made lookup b.next rest restUses) :
      Made lookup (some id) ((Plan.statement b).build value body ++ rest)
        (⟨id, .statement⟩ :: ((Plan.statement b).values.flatMap valueUses ++
          (Plan.statement b).bodies.flatMap bodyUses ++ restUses))

section Size

variable {lookup : String → Option Block}

theorem sum_le_of_forall {slots : List String} {size count : String → Nat} {k : Nat}
    (h : ∀ slot ∈ slots, size slot ≤ 4 * count slot + k) :
    (slots.map size).sum ≤ 4 * (slots.map count).sum + k * slots.length := by
  induction slots with
  | nil => simp
  | cons slot rest ih =>
    have hslot := h slot List.mem_cons_self
    have hrest := ih fun other hother => h other (List.mem_cons_of_mem slot hother)
    simp only [List.map_cons, List.sum_cons, List.length_cons, Nat.mul_add, Nat.mul_one]
    omega

theorem Held.load_le {b : Block} {slot : String} {e : Expr} {uses : List Use}
    (h : Held lookup b slot e uses) : e.load ≤ 4 * uses.length + 1 := by
  induction h with
  | default b slot => exact Nat.le_refl 1
  | @reporter b child slot id value uses body hslot hchild hvalue ih =>
    have hplan := Plan.light_reporter child value body
    have hslots := sum_le_of_forall ih
    rw [Plan.bodies_reporter, List.map_nil, List.sum_nil] at hplan
    rw [List.length_cons, List.length_flatMap]
    cases hbuild : (Plan.reporter child).build value body with
    | none =>
      show 1 ≤ _
      omega
    | some e =>
      rw [hbuild] at hplan
      have hload : Plan.weighOption (some e) = e.load := rfl
      show e.load ≤ _
      omega

theorem Made.nodesOf_le {start : Option String} {stmts : List Stmt} {uses : List Use}
    (h : Made lookup start stmts uses) : nodesOf stmts ≤ 4 * uses.length := by
  induction h with
  | nil start => exact Nat.le_refl 0
  | @block id b value body valueUses bodyUses rest restUses hb hvalue hbody hrest ihbody ihrest =>
    have hplan := Plan.light_statement b value body
    have hvalues := sum_le_of_forall fun slot hslot => (hvalue slot hslot).load_le
    have hbodies := sum_le_of_forall (k := 0) ihbody
    rw [nodesOf_append, List.length_cons, List.length_append, List.length_append,
      List.length_flatMap, List.length_flatMap]
    omega

theorem Held.present {b : Block} {slot : String} {e : Expr} {uses : List Use}
    (h : Held lookup b slot e uses) : ∀ u ∈ uses, (lookup u.block).isSome := by
  induction h with
  | default b slot => nofun
  | @reporter b child slot id value uses body hslot hchild hvalue ih =>
    intro u hu
    rcases List.mem_cons.1 hu with rfl | hu
    · exact Option.isSome_iff_exists.2 ⟨child, hchild⟩
    · obtain ⟨inner, hinner, hu⟩ := List.mem_flatMap.1 hu
      exact ih inner hinner u hu

theorem Made.present {start : Option String} {stmts : List Stmt} {uses : List Use}
    (h : Made lookup start stmts uses) : ∀ u ∈ uses, (lookup u.block).isSome := by
  induction h with
  | nil start => nofun
  | @block id b value body valueUses bodyUses rest restUses hb hvalue hbody hrest ihbody ihrest =>
    intro u hu
    simp only [List.mem_cons, List.mem_append, List.mem_flatMap] at hu
    rcases hu with rfl | (⟨slot, hslot, hu⟩ | ⟨slot, hslot, hu⟩) | hu
    · exact Option.isSome_iff_exists.2 ⟨b, hb⟩
    · exact (hvalue slot hslot).present u hu
    · exact ihbody slot hslot u hu
    · exact ihrest u hu

end Size

/-! ### Steps and their uses -/

namespace Progress

/-- From `p` to `q` the blocks in `uses` were met for the first time, each of them once. -/
structure Meets (uses : List Use) (p q : Progress) : Prop where
  once : (uses.map (·.block)).Nodup
  new : ∀ u ∈ uses, u.block ∉ p.visited
  met : ∀ u ∈ uses, u.block ∈ q.visited
  kept : p.visited ⊆ q.visited

variable {us vs : List Use} {p q r : Progress}

theorem meets_nil (h : p.visited ⊆ q.visited) : Meets [] p q :=
  ⟨List.nodup_nil, by simp, by simp, h⟩

theorem Meets.append (hpq : Meets us p q) (hqr : Meets vs q r) : Meets (us ++ vs) p r where
  once := by
    rw [List.map_append]
    refine hpq.once.append hqr.once ?_
    -- What the second part meets is new after the first.
    intro id hus hvs
    obtain ⟨u, hu, rfl⟩ := List.mem_map.1 hus
    obtain ⟨v, hv, hblock⟩ := List.mem_map.1 hvs
    exact hqr.new v hv (hblock ▸ hpq.met u hu)
  new := by
    intro u hu
    rcases List.mem_append.1 hu with hu | hu
    · exact hpq.new u hu
    · exact fun hold => hqr.new u hu (hpq.kept hold)
  met := by
    intro u hu
    rcases List.mem_append.1 hu with hu | hu
    · exact hqr.kept (hpq.met u hu)
    · exact hqr.met u hu
  kept := List.Subset.trans hpq.kept hqr.kept

theorem meets_singleton {id : String} (role : Role) (h : id ∉ p.visited) :
    Meets [⟨id, role⟩] p { p with visited := id :: p.visited } where
  once := List.nodup_singleton id
  new := by simpa using h
  met := by simp
  kept := List.subset_cons_self id p.visited

end Progress

namespace Step

variable {α β : Type} {x : Step α} {f : α → Step β}

/-- Whatever was met before, the result and the uses of blocks for it are as `R` says, and the
blocks are met for the first time. -/
def Logs (x : Step α) (R : α → List Use → Prop) : Prop :=
  ∀ p, ∃ uses, R (x.run p).1 uses ∧ p.Meets uses (x.run p).2

theorem logs_pure {a : α} {R : α → List Use → Prop} (h : R a []) : Logs (pure a) R :=
  fun p => ⟨[], h, Progress.meets_nil (List.Subset.refl p.visited)⟩

theorem logs_bind {Q : α → List Use → Prop} {R : β → List Use → Prop} (hx : x.Logs Q)
    (hf : ∀ a us, Q a us → (f a).Logs fun b vs => R b (us ++ vs)) : Logs (x >>= f) R := by
  intro p
  obtain ⟨us, hQ, hus⟩ := hx p
  obtain ⟨vs, hR, hvs⟩ := hf _ us hQ (x.run p).2
  exact ⟨us ++ vs, hR, hus.append hvs⟩

/-- A step that uses no block can come before any other. -/
theorem logs_after {R : β → List Use → Prop} (hx : ∀ p : Progress, p.visited ⊆ (x.run p).2.visited)
    (hf : ∀ a, (f a).Logs R) : Logs (x >>= f) R := by
  have hnone : x.Logs fun _ us => us = [] := fun p => ⟨[], rfl, Progress.meets_nil (hx p)⟩
  refine logs_bind hnone fun a us hus => ?_
  subst hus
  exact hf a

theorem visited_complain (id : String) (c : Complaint) (p : Progress) :
    p.visited ⊆ ((complain id c).run p).2.visited :=
  List.Subset.refl p.visited

theorem visited_faults (id : String) (faults : List Complaint) (p : Progress) :
    p.visited ⊆ ((faults.forM (complain id)).run p).2.visited := by
  induction faults generalizing p with
  | nil => exact List.Subset.refl p.visited
  | cons c rest ih =>
    exact List.Subset.trans (visited_complain id c p) (ih ((complain id c).run p).2)

theorem logs_defaultOf {b : Block} {slot : String} {R : Expr → List Use → Prop}
    (h : R (.literal (b.kind.slotDefault slot)) []) : (defaultOf b slot).Logs R := by
  unfold defaultOf
  split
  · exact logs_after (visited_complain b.id _) fun _ => logs_pure h
  · exact logs_pure h

theorem visited_visit (id : String) (p : Progress) : p.visited ⊆ ((visit id).run p).2.visited := by
  by_cases h : id ∈ p.visited
  · rw [run_visit_of_mem h]
    exact List.Subset.refl p.visited
  · rw [run_visit_of_notMem h]
    exact List.subset_cons_self id p.visited

/-- A block that is met for the first time may be used. -/
theorem logs_visit {id : String} (role : Role) {f : Bool → Step β} {R : β → List Use → Prop}
    (hmet : (f false).Logs R) (hnew : (f true).Logs fun b us => R b (⟨id, role⟩ :: us)) :
    Logs (visit id >>= f) R := by
  intro p
  rw [StateT.run_bind]
  by_cases h : id ∈ p.visited
  · rw [run_visit_of_mem h]
    exact hmet p
  · rw [run_visit_of_notMem h]
    obtain ⟨us, hR, hus⟩ := hnew { p with visited := id :: p.visited }
    exact ⟨⟨id, role⟩ :: us, hR, (Progress.meets_singleton role h).append hus⟩

theorem logs_gather {ask : String → Step β} {R : String → β → List Use → Prop}
    (hask : ∀ slot, (ask slot).Logs (R slot)) {slots : List String} (hslots : slots.Nodup)
    (f : String → β) :
    (Plan.gather ask slots f).Logs fun g us =>
      ∃ uses : String → List Use, us = slots.flatMap uses ∧
        ∀ slot ∈ slots, R slot (g slot) (uses slot) := by
  induction slots with
  | nil => exact logs_pure ⟨fun _ => [], rfl, by simp⟩
  | cons slot rest ih =>
    obtain ⟨hslot, hrest⟩ := List.nodup_cons.1 hslots
    refine logs_bind (hask slot) fun x us hx => ?_
    refine logs_bind (ih hrest) fun g vs hg => ?_
    obtain ⟨uses, rfl, hg⟩ := hg
    have hne : ∀ other ∈ rest, other ≠ slot := by
      rintro other hother rfl
      exact hslot hother
    refine logs_pure ⟨fun other => if other = slot then us else uses other, ?_, ?_⟩
    · have hsame : rest.flatMap uses =
          rest.flatMap fun other => if other = slot then us else uses other :=
        List.flatMap_congr fun other hother => (if_neg (hne other hother)).symm
      simp [← hsame]
    · intro other hother
      rcases List.mem_cons.1 hother with rfl | hother
      · simpa using hx
      · simpa [hne other hother] using hg other hother

end Step

open Step

/-- A plan that is carried out builds from what its slots hold, and uses what was used for these. -/
theorem logs_carryOut {α : Type} {plan : Plan α} (hplan : plan.Tidy)
    {chain : Option String → Step (List Stmt)} {input : Block → String → Step Expr} {b : Block}
    {lookup : String → Option Block}
    (hinput : ∀ slot, (input b slot).Logs (Held lookup b slot))
    (hchain : ∀ slot, (chain (b.statementSlot? slot)).Logs (Made lookup (b.statementSlot? slot)))
    (value : String → Expr) (body : String → List Stmt) :
    (plan.carryOut chain input b value body).Logs fun a us =>
      ∃ (value : String → Expr) (body : String → List Stmt)
        (valueUses bodyUses : String → List Use), a = plan.build value body ∧
        us = plan.values.flatMap valueUses ++ plan.bodies.flatMap bodyUses ∧
        (∀ slot ∈ plan.values, Held lookup b slot (value slot) (valueUses slot)) ∧
        ∀ slot ∈ plan.bodies, Made lookup (b.statementSlot? slot) (body slot) (bodyUses slot) := by
  refine logs_bind (logs_gather hinput hplan.values value) fun value us hvalue => ?_
  refine logs_bind (logs_gather hchain hplan.bodies body) fun body vs hbody => ?_
  obtain ⟨valueUses, rfl, hvalue⟩ := hvalue
  obtain ⟨bodyUses, rfl, hbody⟩ := hbody
  refine logs_after (visited_faults b.id plan.faults) fun _ => logs_pure ?_
  exact ⟨value, body, valueUses, bodyUses, rfl, by simp, hvalue, hbody⟩

theorem logs_input (lookup : String → Option Block) (fuel : Nat) (b : Block) (slot : String) :
    (input lookup fuel b slot).Logs (Held lookup b slot) := by
  have hdefault : ∀ b slot, (defaultOf b slot).Logs (Held lookup b slot) :=
    fun b slot => logs_defaultOf (.default b slot)
  induction fuel generalizing b slot with
  | zero => exact hdefault b slot
  | succ fuel ih =>
    rw [input]
    cases hslot : b.valueSlot? slot with
    | none => exact hdefault b slot
    | some id =>
      simp only
      cases hchild : lookup id with
      | none =>
        refine logs_after (visited_visit id) fun isNew => ?_
        cases isNew <;> exact logs_after (visited_complain id _) fun _ => hdefault b slot
      | some child =>
        refine logs_visit .reporter ?_ ?_
        · exact logs_after (visited_complain id _) fun _ => hdefault b slot
        · have hnone : ∀ inner, Logs (pure []) (Made lookup (child.statementSlot? inner)) :=
            fun inner => logs_pure (.nil _)
          simp only [if_true]
          rw [Plan.reporter_eq (fun _ => pure []) _ _ (fun _ => .literal default) fun _ => []]
          refine logs_bind (logs_carryOut (Plan.tidy_reporter child) (ih child) hnone _ _) ?_
          rintro made us ⟨value, body, valueUses, bodyUses, rfl, rfl, hvalue, -⟩
          have hheld := Held.reporter body hslot hchild hvalue
          rw [Plan.bodies_reporter, List.flatMap_nil, List.append_nil]
          cases hmade : (Plan.reporter child).build value body with
          | some e =>
            rw [hmade] at hheld
            exact logs_pure (by simpa using hheld)
          | none =>
            rw [hmade] at hheld
            exact logs_defaultOf (by simpa using hheld)

theorem logs_chain (lookup : String → Option Block) (fuel : Nat) (start : Option String) :
    (chain lookup fuel start).Logs (Made lookup start) := by
  induction fuel generalizing start with
  | zero => cases start <;> exact logs_pure (.nil _)
  | succ fuel ih =>
    cases start with
    | none => exact logs_pure (.nil none)
    | some id =>
      rw [chain]
      cases hb : lookup id with
      | none =>
        refine logs_after (visited_visit id) fun isNew => ?_
        cases isNew <;> exact logs_after (visited_complain id _) fun _ => logs_pure (.nil (some id))
      | some b =>
        refine logs_visit .statement ?_ ?_
        · exact logs_after (visited_complain id _) fun _ => logs_pure (.nil (some id))
        · simp only [if_true]
          rw [Plan.statement_eq _ _ b (fun _ => .literal default) fun _ => []]
          refine logs_bind (logs_carryOut (Plan.tidy_statement b) (logs_input lookup fuel b)
            (fun slot => ih (b.statementSlot? slot)) _ _) ?_
          rintro first us ⟨value, body, valueUses, bodyUses, rfl, rfl, hvalue, hbody⟩
          refine logs_bind (ih b.next) fun rest vs hrest => logs_pure ?_
          simpa using Made.block hb hvalue hbody hrest

/-! ### Scripts -/

/-- The statements under a hat of a tree are made of single uses of its blocks, the hat not among
them, and have at most four nodes for each use. -/
structure Linear (t : BlockTree) (hat : Block) (stmts : List Stmt) (uses : List Use) : Prop where
  made : Made t.get? hat.next stmts uses
  once : (hat.id :: uses.map (·.block)).Nodup
  present : ∀ u ∈ uses, (t.get? u.block).isSome
  nodes : nodesOf stmts ≤ 4 * uses.length
  size : uses.length ≤ t.blocks.size

theorem linear_body (t : BlockTree) (hat : Block) :
    ∃ uses, Linear t hat (body t.get? (t.blocks.size + 1) hat).1 uses := by
  obtain ⟨uses, hmade, hmeets⟩ := logs_chain t.get? (t.blocks.size + 1) hat.next ⟨[hat.id], []⟩
  have hhat : hat.id ∉ uses.map (·.block) := by
    intro h
    obtain ⟨u, hu, hid⟩ := List.mem_map.1 h
    exact hmeets.new u hu (List.mem_singleton.2 hid)
  have hkeys : uses.map (·.block) ⊆ t.blocks.keys := by
    intro id hid
    obtain ⟨u, hu, rfl⟩ := List.mem_map.1 hid
    obtain ⟨b, hb⟩ := Option.isSome_iff_exists.1 (hmade.present u hu)
    exact BlockTree.mem_keys_of_get? hb
  have hsize := (hmeets.once.subperm hkeys).length_le
  refine ⟨uses, hmade, List.nodup_cons.2 ⟨hhat, hmeets.once⟩, hmade.present, hmade.nodesOf_le, ?_⟩
  simpa [Dict.keys, Dict.size] using hsize

/-- Whatever the tree, a script uses each of its blocks at most once, as a statement or as a
reporter, and has at most four times as many nodes as the tree has blocks. -/
theorem scripts_are_linear {name : String} {t : BlockTree} {s : Script}
    (h : s ∈ (entity name t).1.scripts) :
    (∃ hat ∈ t.hats, s.hat = hat.id ∧ ∃ uses, Linear t hat s.body uses) ∧
      nodesOf s.body ≤ 4 * t.blocks.size := by
  obtain ⟨hat, hhat, rfl⟩ := mem_scripts_entity h
  obtain ⟨uses, hlinear⟩ := linear_body t hat
  refine ⟨⟨hat, hhat, rfl, uses, hlinear⟩, ?_⟩
  calc nodesOf (body t.get? (t.blocks.size + 1) hat).1
      ≤ 4 * uses.length := hlinear.nodes
    _ ≤ 4 * t.blocks.size := Nat.mul_le_mul_left 4 hlinear.size

-- The tree has a circle through its hat, a fork inside of itself and a link that leads nowhere.
theorem scripts_are_linear_tangled :
    ∃ uses, Linear Sample.tangled (Sample.block "hat" .whenFlagClicked [] [] (some "loop"))
        [.act .syncMouse, Sample.loop] uses ∧
      nodesOf [.act .syncMouse, Sample.loop] = 9 ∧
      nodesOf [.act .syncMouse, Sample.loop] ≤ 4 * Sample.tangled.blocks.size := by
  have hhats : Sample.tangled.hats = [Sample.block "hat" .whenFlagClicked [] [] (some "loop")] := by
    cbv
  obtain ⟨⟨hat, hhat, -, uses, hlinear⟩, hnodes⟩ := scripts_are_linear Sample.mem_scripts_tangled
  rw [hhats] at hhat
  cases List.mem_singleton.1 hhat
  exact ⟨uses, hlinear, by decide, hnodes⟩

end Compile

end SpriteStage
