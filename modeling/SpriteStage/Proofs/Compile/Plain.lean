import SpriteStage.Proofs.Block.Links
import SpriteStage.Proofs.Compile.Footprint
import SpriteStage.Proofs.Compile.Grammar

/-!
Compilation of well-formed trees.

A tree in which links neither meet nor go in circles can be translated by plain recursion along its
links, with no record of the blocks that were met (`Plain.stmts`). Compilation comes to the same:
what was met before has nothing in common with what hangs on a link that is still to be followed
(`gives_input`, `gives_chain`), so no link is ever cut.
-/

namespace SpriteStage.Compile

open BlockTree Step

/-! ### The plain translation -/

namespace Plain

variable {t : BlockTree}

def fallback (b : Block) (slot : String) : Expr :=
  .literal (b.kind.slotDefault slot)

/-- The expression of a reporter, if the block is one. -/
def expr? (h : t.WellFormed) (id : String) : Option Expr :=
  match hb : t.get? id with
  | none => none
  | some b =>
    (Plan.reporter b).build
      (fun slot =>
        match hslot : b.valueSlot? slot with
        | none => fallback b slot
        | some child =>
          have := h.weight_child (.value slot) hb hslot
          (expr? h child).getD (fallback b slot))
      fun _ => []
termination_by t.weight id

/-- What a value slot of a block holds. -/
def value (h : t.WellFormed) (b : Block) (slot : String) : Expr :=
  match b.valueSlot? slot with
  | none => fallback b slot
  | some child => (expr? h child).getD (fallback b slot)

/-- The statements of a block and of those below it. -/
def stmts (h : t.WellFormed) (id : String) : List Stmt :=
  match hb : t.get? id with
  | none => []
  | some b =>
    (Plan.statement b).build (value h b)
        (fun slot =>
          match hslot : b.statementSlot? slot with
          | none => []
          | some child =>
            have := h.weight_child (.body slot) hb hslot
            stmts h child) ++
      match hnext : b.next with
      | none => []
      | some below =>
        have := h.weight_child .below hb hnext
        stmts h below
termination_by t.weight id

def chain (h : t.WellFormed) : Option String → List Stmt
  | none => []
  | some id => stmts h id

theorem expr?_eq (h : t.WellFormed) {id : String} {b : Block} (hb : t.get? id = some b) :
    expr? h id = (Plan.reporter b).build (value h b) fun _ => [] := by
  rw [expr?]
  split
  · next hnone =>
    rw [hb] at hnone
    cases hnone
  · next b' hb' =>
    obtain rfl : b' = b := Option.some.inj (hb'.symm.trans hb)
    congr
    funext slot
    rw [value]
    split
    · next hslot => rw [hslot]
    · next child hslot => simp only [hslot]

theorem stmts_eq (h : t.WellFormed) {id : String} {b : Block} (hb : t.get? id = some b) :
    stmts h id =
      (Plan.statement b).build (value h b) (fun slot => chain h (b.statementSlot? slot)) ++
        chain h b.next := by
  rw [stmts]
  split
  · next hnone =>
    rw [hb] at hnone
    cases hnone
  · next b' hb' =>
    obtain rfl : b' = b := Option.some.inj (hb'.symm.trans hb)
    congr 1
    · congr
      funext slot
      split
      · next hslot => rw [hslot, chain]
      · next child hslot => simp only [hslot, chain]
    · split
      · next hnext => rw [hnext, chain]
      · next below hnext => simp only [hnext, chain]

/-- The program with the script under a hat filed in it. -/
def addHat (h : t.WellFormed) (p : EntityProgram) (hat : Block) : EntityProgram :=
  match hat.kind.trigger? with
  | none => p
  | some trigger => (file p hat trigger ⟨hat.id, chain h hat.next⟩).1

def program (h : t.WellFormed) : EntityProgram :=
  t.hats.foldl (addHat h) .empty

end Plain

/-! ### Links are never cut -/

section Links

variable {t : BlockTree} {id : String} {b : Block}

theorem gives_slots {α : Type} {plan : Plan α} (hplan : plan.Tidy) (h : t.WellFormed)
    (hb : t.get? id = some b) {chain : Option String → Step (List Stmt)}
    {input : Block → String → Step Expr} {value : String → Expr} {body : String → List Stmt}
    (hinput : ∀ slot, (input b slot).Gives (t.under (b.valueSlot? slot)) (value slot))
    (hchain : ∀ slot,
      (chain (b.statementSlot? slot)).Gives (t.under (b.statementSlot? slot)) (body slot)) :
    (plan.carryOut chain input b value body).Gives (t.inside b) (plan.build value body) := by
  have hdisjoint : ∀ port port' : Port, port ≠ port' →
      Disjoint (t.under (b.target? port)) (t.under (b.target? port')) :=
    fun _ _ hne => h.disjoint_under hb hne
  refine (Plan.gives_carryOut hplan hinput hchain ?_ ?_ ?_).mono (Set.union_subset ?_ ?_)
  · exact fun slot other hne => hdisjoint (.value slot) (.value other) (by simpa using hne)
  · exact fun slot other hne => hdisjoint (.body slot) (.body other) (by simpa using hne)
  · exact fun slot other => hdisjoint (.value slot) (.body other) nofun
  · exact Set.iUnion_subset fun slot x hx => ⟨.value slot, nofun, hx⟩
  · exact Set.iUnion_subset fun slot x hx => ⟨.body slot, nofun, hx⟩

theorem gives_reporter (h : t.WellFormed) (hb : t.get? id = some b)
    {input : Block → String → Step Expr}
    (hinput : ∀ slot, (input b slot).Gives (t.under (b.valueSlot? slot)) (Plain.value h b slot)) :
    (reporter input b).Gives (t.inside b) (Plain.expr? h id) := by
  rw [Plain.expr?_eq h hb, Plan.reporter_eq (fun _ => pure []) _ _ (Plain.value h b) fun _ => []]
  exact gives_slots (Plan.tidy_reporter b) h hb hinput fun _ => gives_pure _ []

theorem gives_statement (h : t.WellFormed) (hb : t.get? id = some b)
    {chain : Option String → Step (List Stmt)} {input : Block → String → Step Expr}
    (hinput : ∀ slot, (input b slot).Gives (t.under (b.valueSlot? slot)) (Plain.value h b slot))
    (hchain : ∀ slot, (chain (b.statementSlot? slot)).Gives (t.under (b.statementSlot? slot))
      (Plain.chain h (b.statementSlot? slot))) :
    (statement chain input b).Gives (t.inside b)
      ((Plan.statement b).build (Plain.value h b) fun slot =>
        Plain.chain h (b.statementSlot? slot)) := by
  rw [Plan.statement_eq _ _ b (Plain.value h b) fun slot => Plain.chain h (b.statementSlot? slot)]
  exact gives_slots (Plan.tidy_statement b) h hb hinput hchain

theorem gives_input (h : t.WellFormed) {fuel : Nat} (hb : t.get? id = some b)
    (hfuel : t.weight id ≤ fuel) (slot : String) :
    (input t.get? fuel b slot).Gives (t.under (b.valueSlot? slot)) (Plain.value h b slot) := by
  -- There is never less fuel than blocks that hang on the one whose slot is looked into.
  induction fuel generalizing id b slot with
  | zero =>
    rw [input, Plain.value]
    cases hslot : b.valueSlot? slot with
    | none => exact (gives_defaultOf b slot).mono (Set.empty_subset _)
    | some child =>
      have hlt := h.weight_child (.value slot) hb hslot
      omega
  | succ fuel ih =>
    rw [input, Plain.value]
    cases hslot : b.valueSlot? slot with
    | none => exact (gives_defaultOf b slot).mono (Set.empty_subset _)
    | some child =>
      obtain ⟨c, hc⟩ := h.get?_child (.value slot) hb hslot
      have hlt := h.weight_child (.value slot) hb hslot
      have hle : t.weight child ≤ fuel := by omega
      have hfresh : Disjoint {child} (t.inside c) :=
        Set.disjoint_singleton_left.2 (h.notMem_inside hc)
      have hpart : {child} ∪ t.inside c ⊆ t.under (some child) :=
        (Set.union_subset_union_right _ Set.subset_union_left).trans (subset_under hc)
      refine ((gives_visit child).bind ?_ hfresh).mono hpart
      simp only [if_true, hc]
      refine (gives_reporter h hc (ih hc hle)).andThen ?_
      cases Plain.expr? h child with
      | some e => exact gives_pure ∅ e
      | none => exact gives_defaultOf b slot

theorem gives_chain (h : t.WellFormed) {fuel : Nat} (hb : t.get? id = some b)
    (hfuel : t.weight id ≤ fuel) (port : Port) :
    (chain t.get? fuel (b.target? port)).Gives (t.under (b.target? port))
      (Plain.chain h (b.target? port)) := by
  induction fuel generalizing id b port with
  | zero =>
    cases htarget : b.target? port with
    | none => exact gives_pure _ []
    | some child =>
      have hlt := h.weight_child port hb htarget
      omega
  | succ fuel ih =>
    cases htarget : b.target? port with
    | none => exact gives_pure _ []
    | some child =>
      obtain ⟨c, hc⟩ := h.get?_child port hb htarget
      have hlt := h.weight_child port hb htarget
      have hle : t.weight child ≤ fuel := by omega
      have hfirst := gives_statement h hc (gives_input h hc hle) fun slot => ih hc hle (.body slot)
      have hrest : (chain t.get? fuel c.next).Gives (t.under c.next) (Plain.chain h c.next) :=
        ih hc hle .below
      -- The block is met before what hangs on it, and none of that leads back to it.
      have hfresh : Disjoint {child} (t.inside c ∪ t.under c.next) :=
        Set.disjoint_singleton_left.2 fun hmem =>
          hmem.elim (h.notMem_inside hc) (h.notMem_under hc .below)
      rw [chain, Plain.chain, Plain.stmts_eq h hc]
      refine ((gives_visit child).bind ?_ hfresh).mono (subset_under hc)
      simp only [if_true, hc]
      exact hfirst.bind (hrest.andThen (gives_pure ∅ _)) (h.disjoint_inside hc)

end Links

/-! ### Programs -/

section Programs

variable {t : BlockTree} {hat : Block}

theorem body_eq (h : t.WellFormed) (hhat : t.get? hat.id = some hat) :
    (body t.get? (t.blocks.size + 1) hat).1 = Plain.chain h hat.next ∧
      ∀ c ∈ (body t.get? (t.blocks.size + 1) hat).2, c.2.aboutLink = false := by
  have hfuel : t.weight hat.id ≤ t.blocks.size + 1 := (t.weight_le _).trans (Nat.le_succ _)
  -- Before the first block nothing but the hat was met.
  have hfresh : ∀ id ∈ [hat.id], id ∉ t.under hat.next :=
    List.forall_mem_singleton.2 (h.notMem_under hhat .below)
  obtain ⟨q, hrun, hwithin⟩ := gives_chain h hhat hfuel .below ⟨[hat.id], []⟩ hfresh
  have hbody : body t.get? (t.blocks.size + 1) hat = (Plain.chain h hat.next, q.complaints) :=
    congrArg (fun r => (r.1, r.2.complaints)) hrun
  rw [hbody]
  exact ⟨rfl, fun c hc => (hwithin.complaints c hc).resolve_left nofun⟩

theorem aboutLink_of_file {p : EntityProgram} {trigger : Trigger} {s : Script} {c : Complaint}
    (hc : c ∈ (file p hat trigger s).2) : c.aboutLink = false := by
  cases trigger with
  | click => cases hc
  | start | key | message =>
    simp only [file] at hc
    split at hc
    all_goals simp_all [Complaint.aboutLink]

theorem addHat_eq (h : t.WellFormed) (hhat : t.get? hat.id = some hat)
    {state : EntityProgram × List (String × Complaint)}
    (hstate : ∀ c ∈ state.2, c.2.aboutLink = false) :
    (addHat t.get? (t.blocks.size + 1) state hat).1 = Plain.addHat h state.1 hat ∧
      ∀ c ∈ (addHat t.get? (t.blocks.size + 1) state hat).2, c.2.aboutLink = false := by
  obtain ⟨hstmts, hcomplaints⟩ := body_eq h hhat
  unfold Plain.addHat addHat
  cases hat.kind.trigger? with
  | none => exact ⟨rfl, hstate⟩
  | some trigger =>
    refine ⟨congrArg (fun stmts => (file state.1 hat trigger ⟨hat.id, stmts⟩).1) hstmts, ?_⟩
    intro c hc
    rcases List.mem_append.1 hc with hc | hc
    · exact (List.mem_append.1 hc).elim (hstate c) (hcomplaints c)
    · obtain ⟨own, hown, rfl⟩ := List.mem_map.1 hc
      exact aboutLink_of_file hown

theorem addHats_eq (h : t.WellFormed) {hats : List Block}
    (hhats : ∀ hat ∈ hats, t.get? hat.id = some hat)
    (state : EntityProgram × List (String × Complaint))
    (hstate : ∀ c ∈ state.2, c.2.aboutLink = false) :
    (hats.foldl (addHat t.get? (t.blocks.size + 1)) state).1 =
        hats.foldl (Plain.addHat h) state.1 ∧
      ∀ c ∈ (hats.foldl (addHat t.get? (t.blocks.size + 1)) state).2, c.2.aboutLink = false := by
  induction hats generalizing state with
  | nil => exact ⟨rfl, hstate⟩
  | cons hat rest ih =>
    obtain ⟨hprogram, hcomplaints⟩ := addHat_eq h (hhats hat List.mem_cons_self) hstate
    rw [List.foldl_cons, List.foldl_cons, ← hprogram]
    exact ih (fun other hother => hhats other (List.mem_cons_of_mem hat hother)) _ hcomplaints

/-- In a well-formed tree each script is the plain translation of the blocks under its hat, and no
link is cut or found to lead nowhere. -/
theorem entity_translates_plainly (h : t.WellFormed) (name : String) :
    (∀ hat ∈ t.hats, (body t.get? (t.blocks.size + 1) hat).1 = Plain.chain h hat.next) ∧
      (entity name t).1 = Plain.program h ∧
      ∀ w ∈ (entity name t).2, w.complaint.aboutLink = false := by
  obtain ⟨hprogram, hcomplaints⟩ := addHats_eq h (fun hat hhat => h.get?_hat hhat)
    (.empty, []) nofun
  refine ⟨fun hat hhat => (body_eq h (h.get?_hat hhat)).1, hprogram, fun w hw => ?_⟩
  obtain ⟨c, hc, rfl⟩ := List.mem_map.1 hw
  exact hcomplaints c hc

end Programs

/-! ### A well-formed tree -/

namespace Sample

/-- A loop until something is touched, with a move by a sum in it and a stop below it. -/
def chase : BlockTree :=
  ⟨.ofList [
    ("hat", block "hat" .whenFlagClicked [] [] (some "loop")),
    ("loop",
      block "loop" .repeatUntil [("CONDITION", "touch")] [("SUBSTACK", "move")] (some "stop")),
    ("touch", block "touch" .touchingObject [("TOUCHINGOBJECTMENU", "menu")] [] none),
    ("menu", block "menu" .menu [] [] none),
    ("move", block "move" .moveSteps [("STEPS", "sum")] [] none),
    ("sum", block "sum" .add [("NUM2", "mouse")] [] none),
    ("mouse", block "mouse" .mouseX [] [] none),
    ("stop", block "stop" .stop [] [] none)]⟩

theorem wellFormed_chase : chase.WellFormed where
  keyed := by decide +kernel
  resolved := by decide +kernel
  unshared := by decide +kernel
  acyclic := acyclic_of_order
    (["hat", "loop", "touch", "menu", "move", "sum", "mouse", "stop"].idxOf ·) (by decide +kernel)

end Sample

/-- The empty first slot of the sum holds the default of the table, the second one the reporter. -/
theorem entity_translates_plainly_sample :
    (entity "Cat" Sample.chase).1 = Plain.program Sample.wellFormed_chase ∧
      (∀ w ∈ (entity "Cat" Sample.chase).2, w.complaint.aboutLink = false) ∧
      (Plain.program Sample.wellFormed_chase).onStart = some ⟨"hat",
        [.repeatUntil (.touching (.literal (.text "")))
          [.act .syncMouse,
            .act (.moveSteps (.arith .add (.literal (.number 0)) (.sense .mouseX))), .act .yield],
          .act (.stop .all)]⟩ := by
  obtain ⟨-, hprogram, hwarnings⟩ := entity_translates_plainly Sample.wellFormed_chase "Cat"
  refine ⟨hprogram, hwarnings, ?_⟩
  rw [← hprogram]
  cbv

end SpriteStage.Compile
