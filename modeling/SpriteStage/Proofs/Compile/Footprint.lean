import Mathlib
import SpriteStage.Proofs.Compile.Plan

/-!
Steps that keep to their part of a tree.

`x.Gives S a` says that the step `x` comes to `a` if nothing of `S` was met before, and that it
meets nothing outside of `S`. Steps with parts that have nothing in common can follow each other
(`Gives.bind`), so a block comes to what its plan builds when its slots lead to different parts
(`Plan.gives_carryOut`).
-/

namespace SpriteStage.Compile

/-- A link was cut, or leads nowhere. -/
def Complaint.aboutLink : Complaint → Bool
  | .chainLoops | .chainMissing | .reporterLoops | .inputMissing => true
  | _ => false

/-- A hat lacks what it needs, or comes too late. -/
def Complaint.aboutHat : Complaint → Bool
  | .extraStart | .withoutKey | .withoutMessage => true
  | _ => false

namespace Progress

/-- From `p` to `q` only ids of `S` were met, and nothing was wrong with the links. -/
structure Within (S : Set String) (p q : Progress) : Prop where
  visited : ∀ id ∈ q.visited, id ∈ p.visited ∨ id ∈ S
  complaints : ∀ c ∈ q.complaints, c ∈ p.complaints ∨ c.2.aboutLink = false

variable {S T : Set String} {p q r : Progress}

theorem Within.refl (S : Set String) (p : Progress) : Within S p p :=
  ⟨fun _ => .inl, fun _ => .inl⟩

theorem Within.mono (h : Within S p q) (hST : S ⊆ T) : Within T p q :=
  ⟨fun id hid => (h.visited id hid).imp_right (@hST id), h.complaints⟩

theorem Within.trans (hpq : Within S p q) (hqr : Within S q r) : Within S p r where
  visited := fun id hid => (hqr.visited id hid).elim (hpq.visited id) .inr
  complaints := fun c hc => (hqr.complaints c hc).elim (hpq.complaints c) .inr

end Progress

namespace Step

variable {α β : Type} {x : Step α} {a : α} {S T : Set String}

def Gives (x : Step α) (S : Set String) (a : α) : Prop :=
  ∀ p : Progress, (∀ id ∈ p.visited, id ∉ S) → ∃ q, x.run p = (a, q) ∧ p.Within S q

theorem gives_pure (S : Set String) (a : α) : Gives (pure a) S a :=
  fun p _ => ⟨p, rfl, .refl S p⟩

theorem Gives.mono (h : x.Gives S a) (hST : S ⊆ T) : x.Gives T a := by
  intro p hp
  obtain ⟨q, hrun, hpq⟩ := h p fun id hid hS => hp id hid (hST hS)
  exact ⟨q, hrun, hpq.mono hST⟩

theorem Gives.bind {f : α → Step β} {b : β} (hx : x.Gives S a) (hf : (f a).Gives T b)
    (hST : Disjoint S T) : Gives (x >>= f) (S ∪ T) b := by
  intro p hp
  obtain ⟨q, hrun, hpq⟩ := hx p fun id hid hS => hp id hid (.inl hS)
  -- What the first step met is old or in `S`, so the second one finds all of `T` unmet.
  have hq : ∀ id ∈ q.visited, id ∉ T := by
    intro id hid hT
    rcases hpq.visited id hid with hold | hS
    · exact hp id hold (.inr hT)
    · exact Set.disjoint_left.1 hST hS hT
  obtain ⟨r, hrun', hqr⟩ := hf q hq
  refine ⟨r, ?_, (hpq.mono Set.subset_union_left).trans (hqr.mono Set.subset_union_right)⟩
  rw [StateT.run_bind, hrun]
  exact hrun'

/-- A step that meets nothing can come before any other. -/
theorem Gives.before {f : α → Step β} {b : β} (hx : x.Gives ∅ a) (hf : (f a).Gives S b) :
    Gives (x >>= f) S b :=
  (hx.bind hf (Set.empty_disjoint S)).mono (Set.empty_union S).subset

theorem Gives.andThen {f : α → Step β} {b : β} (hx : x.Gives S a) (hf : (f a).Gives ∅ b) :
    Gives (x >>= f) S b :=
  (hx.bind hf (Set.disjoint_empty S)).mono (Set.union_empty S).subset

theorem gives_complain (id : String) {c : Complaint} (h : c.aboutLink = false) :
    Gives (complain id c) ∅ () := by
  intro p _
  refine ⟨_, rfl, fun _ => .inl, fun c' hc' => ?_⟩
  rcases List.mem_append.1 hc' with hold | hnew
  · exact .inl hold
  · cases List.mem_singleton.1 hnew
    exact .inr h

theorem gives_faults (id : String) {faults : List Complaint}
    (h : ∀ c ∈ faults, c.aboutLink = false) : Gives (faults.forM (complain id)) ∅ () := by
  induction faults with
  | nil => exact gives_pure ∅ ()
  | cons c rest ih =>
    exact (gives_complain id (h c List.mem_cons_self)).before
      (ih fun c' hc' => h c' (List.mem_cons_of_mem c hc'))

theorem gives_defaultOf (b : Block) (slot : String) :
    Gives (defaultOf b slot) ∅ (.literal (b.kind.slotDefault slot)) := by
  unfold defaultOf
  split
  · exact (gives_complain b.id rfl).before (gives_pure ∅ _)
  · exact gives_pure ∅ _

theorem run_visit_of_mem {id : String} {p : Progress} (h : id ∈ p.visited) :
    (visit id).run p = (false, p) := by
  have hmet : p.visited.contains id = true := List.contains_iff_mem.2 h
  simp only [visit, StateT.run_bind, StateT.run_get, pure_bind, if_pos hmet]
  rfl

theorem run_visit_of_notMem {id : String} {p : Progress} (h : id ∉ p.visited) :
    (visit id).run p = (true, { p with visited := id :: p.visited }) := by
  have hnew : ¬ p.visited.contains id = true := fun hmem => h (List.contains_iff_mem.1 hmem)
  simp only [visit, StateT.run_bind, StateT.run_get, pure_bind, if_neg hnew]
  rfl

theorem gives_visit (id : String) : Gives (visit id) {id} true := by
  intro p hp
  have hnew : id ∉ p.visited := fun hmem => hp id hmem rfl
  refine ⟨{ p with visited := id :: p.visited }, run_visit_of_notMem hnew, ?_, fun _ => .inl⟩
  intro other hother
  exact (List.mem_cons.1 hother).symm

theorem gives_gather {ask : String → Step β} {part : String → Set String} {f : String → β}
    (hpart : Pairwise fun slot other => Disjoint (part slot) (part other)) {slots : List String}
    (hslots : slots.Nodup) (hask : ∀ slot ∈ slots, (ask slot).Gives (part slot) (f slot)) :
    (Plan.gather ask slots f).Gives (⋃ slot ∈ slots, part slot) f := by
  induction slots with
  | nil => exact gives_pure _ f
  | cons slot rest ih =>
    obtain ⟨hslot, hrest⟩ := List.nodup_cons.1 hslots
    have hdisjoint : Disjoint (part slot) (⋃ other ∈ rest, part other) := by
      refine Set.disjoint_iUnion₂_right.2 fun other hother => hpart ?_
      rintro rfl
      exact hslot hother
    have hsame : (fun other => if other = slot then f slot else f other) = f := by
      funext other
      split
      · next h => rw [h]
      · rfl
    have hgather : (Plan.gather ask (slot :: rest) f).Gives
        (part slot ∪ ⋃ other ∈ rest, part other)
        (fun other => if other = slot then f slot else f other) := by
      refine (hask slot List.mem_cons_self).bind ?_ hdisjoint
      exact (ih hrest fun other hother => hask other (List.mem_cons_of_mem slot hother)).andThen
        (gives_pure ∅ _)
    rw [hsame] at hgather
    simpa only [List.mem_cons, Set.iUnion_iUnion_eq_or_left] using hgather

end Step

/-! ### Plans -/

namespace Plan

open Step

variable {α : Type}

/-- No slot is looked into twice, and nothing that is wrong with the block itself is a link or a
hat. -/
structure Tidy (plan : Plan α) : Prop where
  values : plan.values.Nodup
  bodies : plan.bodies.Nodup
  faults : ∀ c ∈ plan.faults, c.aboutLink = false ∧ c.aboutHat = false

theorem tidy_faultless {values bodies : List String} (hvalues : values.Nodup)
    (hbodies : bodies.Nodup) (build : (String → Expr) → (String → List Stmt) → α) :
    Tidy ⟨values, bodies, [], build⟩ :=
  ⟨hvalues, hbodies, nofun⟩

theorem tidy_fixed (a : α) : (fixed a).Tidy :=
  tidy_faultless .nil .nil _

theorem tidy_fault {c : Complaint} (h : c.aboutLink = false ∧ c.aboutHat = false) (a : α) :
    (fault c a).Tidy :=
  ⟨.nil, .nil, List.forall_mem_singleton.2 h⟩

theorem tidy_one (slot : String) (make : Expr → α) : (one slot make).Tidy :=
  tidy_faultless (List.nodup_singleton slot) .nil _

theorem tidy_two {first second : String} (h : first ≠ second) (make : Expr → Expr → α) :
    (two first second make).Tidy :=
  tidy_faultless (by simp [h]) .nil _

theorem tidy_named (b : Block) (a : α) {plan : String → Plan α} (h : ∀ name, (plan name).Tidy) :
    (named b a plan).Tidy := by
  unfold named
  split
  · exact h _
  · exact tidy_fault ⟨rfl, rfl⟩ a

theorem tidy_statement (b : Block) : (statement b).Tidy := by
  unfold statement
  cases b.kind with
  | ifOnEdgeBounce | nextCostume | nextBackdrop | showSprite | hideSprite | stopAllSounds | stop
  | resetTimer => exact tidy_fixed _
  | goToXY | sayForSecs | thinkForSecs | broadcastAndWait => exact tidy_two (by decide) _
  | moveSteps | turnRight | turnLeft | changeXBy | setX | changeYBy | setY | pointInDirection | say
  | think | switchCostumeTo | switchBackdropTo | changeSizeBy | setSizeTo | playSound
  | playSoundUntilDone | broadcast | wait | waitUntil => exact tidy_one _ _
  | setVariableTo | changeVariableBy => exact tidy_named b [] fun _ => tidy_one _ _
  | showVariable | hideVariable => exact tidy_named b [] fun _ => tidy_fixed _
  | glideSecsToXY | repeatTimes | forever | ifThen | ifElse | repeatUntil =>
    exact tidy_faultless (by decide) (by decide) _
  | _ => exact tidy_fault ⟨rfl, rfl⟩ []

theorem tidy_reporter (b : Block) : (reporter b).Tidy := by
  unfold reporter
  cases b.kind with
  | mathNumber | text | menu | xPosition | yPosition | direction | size | timer | mouseX | mouseY
  | costumeNumberName | backdropNumberName => exact tidy_fixed _
  | readVariable => exact tidy_named b none fun _ => tidy_fixed _
  | touchingObject | distanceTo | keyPressed | not | length | round => exact tidy_one _ _
  | add | subtract | multiply | divide | mod | random | gt | lt | equals | and | or | join
  | letterOf | contains => exact tidy_two (by decide) _
  | mathOp =>
    simp only
    split
    · exact tidy_one _ _
    · exact ⟨List.nodup_singleton _, .nil, List.forall_mem_singleton.2 ⟨rfl, rfl⟩⟩
  | _ => exact tidy_fault ⟨rfl, rfl⟩ none

theorem gives_carryOut {plan : Plan α} (hplan : plan.Tidy)
    {chain : Option String → Step (List Stmt)} {input : Block → String → Step Expr} {b : Block}
    {value : String → Expr} {body : String → List Stmt} {S T : String → Set String}
    (hinput : ∀ slot, (input b slot).Gives (S slot) (value slot))
    (hchain : ∀ slot, (chain (b.statementSlot? slot)).Gives (T slot) (body slot))
    (hS : Pairwise fun slot other => Disjoint (S slot) (S other))
    (hT : Pairwise fun slot other => Disjoint (T slot) (T other))
    (hST : ∀ slot other, Disjoint (S slot) (T other)) :
    (plan.carryOut chain input b value body).Gives ((⋃ slot, S slot) ∪ ⋃ slot, T slot)
      (plan.build value body) := by
  have hfaults : ∀ c ∈ plan.faults, c.aboutLink = false := fun c hc => (hplan.faults c hc).1
  have hvalues := gives_gather hS hplan.values fun slot _ => hinput slot
  have hbodies := gives_gather hT hplan.bodies fun slot _ => hchain slot
  refine (hvalues.mono ?_).bind ((hbodies.mono ?_).andThen ?_) ?_
  · exact Set.iUnion₂_subset_iUnion _ S
  · exact Set.iUnion₂_subset_iUnion _ T
  · exact (gives_faults b.id hfaults).before (gives_pure ∅ _)
  · exact Set.disjoint_iUnion_left.2 fun slot => Set.disjoint_iUnion_right.2 (hST slot)

end Plan

end SpriteStage.Compile
