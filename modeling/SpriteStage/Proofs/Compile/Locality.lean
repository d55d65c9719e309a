import SpriteStage.Proofs.Block.Links
import SpriteStage.Proofs.Compile.Hats

/-!
What a script depends on.

Compilation asks for no block that cannot be come to from the hat along links, so two trees that
agree on these blocks have the same script under the hat (`body_eq_of_agree`). The trees may have
different numbers of blocks, and with them different limits on the way along links. No limit is ever
met: each block is entered once, so what is left of a limit stays above the number of blocks that
have not been met (`Step.Same`).
-/

namespace SpriteStage.Compile

open BlockTree

/-! ### Steps that come to the same -/

/-- At most `n` of the blocks that can be entered have not been met. -/
def Progress.Unmet (known : Finset String) (n : Nat) (p : Progress) : Prop :=
  (known \ p.visited.toFinset).card ≤ n

namespace Step

variable {α β : Type} {known : Finset String} {n : Nat}

/-- As long as no more than `n` blocks have not been met, both steps do the same. -/
def Same (known : Finset String) (n : Nat) (x y : Step α) : Prop :=
  ∀ p : Progress, p.Unmet known n → x.run p = y.run p ∧ (x.run p).2.Unmet known n

theorem same_pure (a : α) : Same known n (pure a) (pure a) :=
  fun _ hp => ⟨rfl, hp⟩

theorem same_bind {x y : Step α} {f g : α → Step β} (hx : Same known n x y)
    (hf : ∀ a, Same known n (f a) (g a)) : Same known n (x >>= f) (y >>= g) := by
  intro p hp
  obtain ⟨hrun, hq⟩ := hx p hp
  rw [StateT.run_bind, StateT.run_bind, ← hrun]
  exact hf _ _ hq

theorem same_complain (id : String) (c : Complaint) :
    Same known n (complain id c) (complain id c) :=
  fun _ hp => ⟨rfl, hp⟩

theorem same_faults (id : String) (faults : List Complaint) :
    Same known n (faults.forM (complain id)) (faults.forM (complain id)) := by
  induction faults with
  | nil => exact same_pure ()
  | cons c rest ih => exact same_bind (same_complain id c) fun _ => ih

theorem same_defaultOf (b : Block) (slot : String) :
    Same known n (defaultOf b slot) (defaultOf b slot) := by
  unfold defaultOf
  split
  · exact same_bind (same_complain b.id _) fun _ => same_pure _
  · exact same_pure _

theorem unmet_cons {p : Progress} (id : String) (hp : p.Unmet known n) :
    Progress.Unmet known n { p with visited := id :: p.visited } := by
  have hsub : known \ (id :: p.visited).toFinset ⊆ known \ p.visited.toFinset := by
    refine Finset.sdiff_subset_sdiff subset_rfl ?_
    rw [List.toFinset_cons]
    exact Finset.subset_insert _ _
  exact (Finset.card_le_card hsub).trans hp

/-- One block less is unmet after a block has been entered. -/
theorem unmet_cons_of_mem {p : Progress} {id : String} (hid : id ∈ known) (hnew : id ∉ p.visited)
    (hp : p.Unmet known n) :
    ∃ k, n = k + 1 ∧ Progress.Unmet known k { p with visited := id :: p.visited } := by
  have hmem : id ∈ known \ p.visited.toFinset :=
    Finset.mem_sdiff.2 ⟨hid, fun h => hnew (List.mem_toFinset.1 h)⟩
  have herase : known \ (id :: p.visited).toFinset = (known \ p.visited.toFinset).erase id := by
    rw [List.toFinset_cons, Finset.sdiff_insert]
  have hcard := Finset.card_erase_of_mem hmem
  have hpos : 0 < (known \ p.visited.toFinset).card := Finset.card_pos.2 ⟨id, hmem⟩
  have hle : (known \ p.visited.toFinset).card ≤ n := hp
  refine ⟨n - 1, by omega, ?_⟩
  show (known \ (id :: p.visited).toFinset).card ≤ n - 1
  rw [herase, hcard]
  omega

theorem same_visit (id : String) {f g : Bool → Step α}
    (h : ∀ isNew, Same known n (f isNew) (g isNew)) :
    Same known n (visit id >>= f) (visit id >>= g) := by
  refine same_bind (fun p hp => ⟨rfl, ?_⟩) h
  by_cases hid : id ∈ p.visited
  · rw [run_visit_of_mem hid]
    exact hp
  · rw [run_visit_of_notMem hid]
    exact unmet_cons id hp

/-- What follows the entering of a block need only do the same with one unmet block less. -/
theorem same_enter {id : String} (hid : id ∈ known) {f g : Bool → Step α}
    (hmet : Same known n (f false) (g false))
    (hnew : ∀ k, n = k + 1 → Same known k (f true) (g true)) :
    Same known n (visit id >>= f) (visit id >>= g) := by
  intro p hp
  rw [StateT.run_bind, StateT.run_bind]
  by_cases hvisited : id ∈ p.visited
  · rw [run_visit_of_mem hvisited]
    exact hmet p hp
  · obtain ⟨k, hk, hq⟩ := unmet_cons_of_mem hid hvisited hp
    rw [run_visit_of_notMem hvisited]
    obtain ⟨hrun, hafter⟩ := hnew k hk _ hq
    exact ⟨hrun, Nat.le_trans hafter (by omega)⟩

theorem same_gather {ask ask' : String → Step β}
    (hask : ∀ slot, Same known n (ask slot) (ask' slot)) (slots : List String) (f : String → β) :
    Same known n (Plan.gather ask slots f) (Plan.gather ask' slots f) := by
  induction slots with
  | nil => exact same_pure f
  | cons slot rest ih => exact same_bind (hask slot) fun _ => same_bind ih fun _ => same_pure _

theorem same_carryOut (plan : Plan α) {chain chain' : Option String → Step (List Stmt)}
    {input input' : Block → String → Step Expr} {b : Block}
    (hinput : ∀ slot, Same known n (input b slot) (input' b slot))
    (hchain : ∀ slot, Same known n (chain (b.statementSlot? slot)) (chain' (b.statementSlot? slot)))
    (value : String → Expr) (body : String → List Stmt) :
    Same known n (plan.carryOut chain input b value body)
      (plan.carryOut chain' input' b value body) := by
  refine same_bind (same_gather hinput _ _) fun _ => ?_
  refine same_bind (same_gather hchain _ _) fun _ => ?_
  exact same_bind (same_faults b.id _) fun _ => same_pure _

end Step

open Step

/-! ### Trees that agree -/

/-- The two look-ups agree on `S`, no link leaves `S`, and its blocks are among the known ones. -/
structure Agree (S : Set String) (known : Finset String) (lookup lookup' : String → Option Block) :
    Prop where
  same : ∀ id ∈ S, lookup' id = lookup id
  closed : ∀ id ∈ S, ∀ b, lookup id = some b → ∀ port child, b.target? port = some child → child ∈ S
  known : ∀ id ∈ S, ∀ b, lookup id = some b → id ∈ known

section Agree

variable {S : Set String} {known : Finset String} {lookup lookup' : String → Option Block}

theorem same_input (h : Agree S known lookup lookup') {n fuel fuel' : Nat} (hn : n < fuel)
    (hn' : n < fuel') {b : Block} (hb : ∀ slot child, b.valueSlot? slot = some child → child ∈ S)
    (slot : String) : Same known n (input lookup fuel b slot) (input lookup' fuel' b slot) := by
  -- Whoever enters one more block has one unmet block less, and as much less fuel.
  induction n using Nat.strong_induction_on generalizing fuel fuel' b slot with
  | _ n ih =>
    obtain ⟨fuel, rfl⟩ : ∃ m, fuel = m + 1 := ⟨fuel - 1, by omega⟩
    obtain ⟨fuel', rfl⟩ : ∃ m, fuel' = m + 1 := ⟨fuel' - 1, by omega⟩
    rw [input, input]
    cases hslot : b.valueSlot? slot with
    | none => exact same_defaultOf b slot
    | some id =>
      have hid : id ∈ S := hb slot id hslot
      have hdefault : Same known n (defaultOf b slot) (defaultOf b slot) := same_defaultOf b slot
      simp only
      rw [h.same id hid]
      cases hlookup : lookup id with
      | none =>
        refine same_visit id fun isNew => ?_
        cases isNew <;> exact same_bind (same_complain id _) fun _ => hdefault
      | some child =>
        refine same_enter (h.known id hid child hlookup) ?_ fun k hk => ?_
        · exact same_bind (same_complain id _) fun _ => hdefault
        · have hslots : ∀ slot c, child.valueSlot? slot = some c → c ∈ S :=
            fun slot c hc => h.closed id hid child hlookup (.value slot) c hc
          have hinput : ∀ slot, Same known k (input lookup fuel child slot)
              (input lookup' fuel' child slot) :=
            fun slot => ih k (by omega) (by omega) (by omega) hslots slot
          have hreporter : Same known k (reporter (input lookup fuel) child)
              (reporter (input lookup' fuel') child) := by
            rw [Plan.reporter_eq (fun _ => pure []) _ _ (fun _ => .literal default) fun _ => [],
              Plan.reporter_eq (fun _ => pure []) _ _ (fun _ => .literal default) fun _ => []]
            exact same_carryOut _ hinput (fun _ => same_pure []) _ _
          simp only [if_true]
          refine same_bind hreporter fun value => ?_
          cases value with
          | some e => exact same_pure e
          | none => exact same_defaultOf b slot

theorem same_chain (h : Agree S known lookup lookup') {n fuel fuel' : Nat} (hn : n < fuel)
    (hn' : n < fuel') {start : Option String} (hstart : ∀ id, start = some id → id ∈ S) :
    Same known n (chain lookup fuel start) (chain lookup' fuel' start) := by
  induction n using Nat.strong_induction_on generalizing fuel fuel' start with
  | _ n ih =>
    obtain ⟨fuel, rfl⟩ : ∃ m, fuel = m + 1 := ⟨fuel - 1, by omega⟩
    obtain ⟨fuel', rfl⟩ : ∃ m, fuel' = m + 1 := ⟨fuel' - 1, by omega⟩
    cases start with
    | none => exact same_pure []
    | some id =>
      have hid : id ∈ S := hstart id rfl
      rw [chain, chain, h.same id hid]
      cases hlookup : lookup id with
      | none =>
        refine same_visit id fun isNew => ?_
        cases isNew <;> exact same_bind (same_complain id _) fun _ => same_pure []
      | some b =>
        refine same_enter (h.known id hid b hlookup) ?_ fun k hk => ?_
        · exact same_bind (same_complain id _) fun _ => same_pure []
        · have hchain : ∀ port, Same known k (chain lookup fuel (b.target? port))
              (chain lookup' fuel' (b.target? port)) := fun port =>
            ih k (by omega) (by omega) (by omega) fun c hc => h.closed id hid b hlookup port c hc
          have hslots : ∀ slot c, b.valueSlot? slot = some c → c ∈ S :=
            fun slot c hc => h.closed id hid b hlookup (.value slot) c hc
          have hstatement : Same known k (statement (chain lookup fuel) (input lookup fuel) b)
              (statement (chain lookup' fuel') (input lookup' fuel') b) := by
            rw [Plan.statement_eq _ _ b (fun _ => .literal default) fun _ => [],
              Plan.statement_eq _ _ b (fun _ => .literal default) fun _ => []]
            exact same_carryOut _ (same_input h (by omega) (by omega) hslots)
              (fun slot => hchain (.body slot)) _ _
          simp only [if_true]
          refine same_bind hstatement fun first => ?_
          exact same_bind (hchain .below) fun rest => same_pure _

theorem body_eq_of_agree (h : Agree S known lookup lookup') {fuel fuel' : Nat}
    (hn : known.card < fuel) (hn' : known.card < fuel') {hat : Block}
    (hnext : ∀ id, hat.next = some id → id ∈ S) :
    body lookup fuel hat = body lookup' fuel' hat := by
  have hunmet : Progress.Unmet known known.card ⟨[hat.id], []⟩ :=
    Finset.card_le_card Finset.sdiff_subset
  have hrun := (same_chain h hn hn' hnext ⟨[hat.id], []⟩ hunmet).1
  exact congrArg (fun r => (r.1, r.2.complaints)) hrun

end Agree

/-! ### What can be come to from a hat -/

section Reach

variable {t t' : BlockTree} {key : String}

open Classical in
/-- The blocks that can be come to along links. -/
noncomputable def reached (t : BlockTree) (key : String) : Finset String :=
  t.blocks.keys.toFinset.filter (t.Reaches key)

theorem mem_reached {id : String} : id ∈ reached t key ↔ id ∈ t.blocks.keys ∧ t.Reaches key id := by
  simp [reached]

theorem card_keys_le (t : BlockTree) : t.blocks.keys.toFinset.card ≤ t.blocks.size :=
  (List.toFinset_card_le _).trans (List.length_map _).le

theorem agree_of_reaches (h : ∀ id, t.Reaches key id → t'.get? id = t.get? id) :
    Agree { id | t.Reaches key id } (reached t key) t.get? t'.get? where
  same := h
  closed := by
    intro id hid b hb port child hchild
    exact hid.tail ⟨⟨id, port, child⟩, mem_links.2 ⟨b, hb, hchild⟩, rfl, rfl⟩
  known := by
    intro id hid b hb
    exact mem_reached.2 ⟨mem_keys_of_get? hb, hid⟩

theorem card_reached_le (h : ∀ id, t.Reaches key id → t'.get? id = t.get? id) :
    (reached t key).card ≤ t.blocks.size ∧ (reached t key).card ≤ t'.blocks.size := by
  refine ⟨(Finset.card_le_card fun id hid => ?_).trans (card_keys_le t),
    (Finset.card_le_card fun id hid => ?_).trans (card_keys_le t')⟩
  · exact List.mem_toFinset.2 (mem_reached.1 hid).1
  · obtain ⟨hkey, hreach⟩ := mem_reached.1 hid
    obtain ⟨entry, hentry, rfl⟩ := List.mem_map.1 hkey
    have hget : t.get? entry.1 = some entry.2 := Dict.get?_eq_some_iff.2 hentry
    exact List.mem_toFinset.2 (mem_keys_of_get? ((h entry.1 hreach).trans hget))

theorem body_eq_of_reaches {hat : Block} (hhat : t.get? key = some hat)
    (h : ∀ id, t.Reaches key id → t'.get? id = t.get? id) :
    body t.get? (t.blocks.size + 1) hat = body t'.get? (t'.blocks.size + 1) hat := by
  obtain ⟨hle, hle'⟩ := card_reached_le h
  refine body_eq_of_agree (agree_of_reaches h) (by omega) (by omega) fun id hid => ?_
  exact .single ⟨⟨key, .below, id⟩, mem_links.2 ⟨hat, hhat, hid⟩, rfl, rfl⟩

/-- What holds all ends of its links holds all that can be come to from it. -/
theorem mem_of_reaches {l : List String} (hkey : key ∈ l)
    (hclosed : ∀ link ∈ t.links, link.source ∈ l → link.target ∈ l) {id : String}
    (h : t.Reaches key id) : id ∈ l := by
  induction h with
  | refl => exact hkey
  | tail _ hstep ih =>
    obtain ⟨link, hlink, rfl, rfl⟩ := hstep
    exact hclosed link hlink ih

end Reach

/-! ### The part of a hat in its program -/

section Programs

/-- Every complaint stays, in its place. -/
theorem addHats_snd (lookup : String → Option Block) (fuel : Nat) (blocks : List Block)
    (state : EntityProgram × List (String × Complaint)) :
    ∃ more, (blocks.foldl (addHat lookup fuel) state).2 = state.2 ++ more := by
  induction blocks generalizing state with
  | nil => exact ⟨[], (List.append_nil _).symm⟩
  | cons hat rest ih =>
    have hstep : ∃ first, (addHat lookup fuel state hat).2 = state.2 ++ first := by
      cases ht : hat.kind.trigger? with
      | none => exact ⟨[], by simp [addHat, ht]⟩
      | some trigger => exact ⟨_, (addHat_snd ht).trans (List.append_assoc _ _ _)⟩
    obtain ⟨first, hfirst⟩ := hstep
    obtain ⟨more, hmore⟩ := ih (addHat lookup fuel state hat)
    refine ⟨first ++ more, ?_⟩
    rw [List.foldl_cons, hmore, hfirst, List.append_assoc]

theorem aboutHat_of_file {p : EntityProgram} {hat : Block} {trigger : Trigger} {s : Script}
    {c : Complaint} (hc : c ∈ (file p hat trigger s).2) : c.aboutHat = true := by
  revert hc
  fun_cases file p hat trigger s <;> simp +contextual [Complaint.aboutHat]

/-- The statements under a hat and the complaints about them, with their places in the program and
among the warnings: all scripts are filed, and the complaints come in one piece after those of the
hats before and in front of those about the hat itself. -/
structure Outcome (t : BlockTree) (hat : Block) (stmts : List Stmt)
    (complaints : List (String × Complaint)) : Prop where
  body : Compile.body t.get? (t.blocks.size + 1) hat = (stmts, complaints)
  script : ∀ name, ∃ script : Block → Script, script hat = ⟨hat.id, stmts⟩ ∧
    Filing script t.hats (entity name t).1
  warnings : ∀ name before after, t.hats = before ++ hat :: after →
    ∃ (own : List Complaint) (rest : List (String × Complaint)),
    (∀ c ∈ own, c.aboutHat = true) ∧
    (entity name t).2 =
      ((hats t.get? (t.blocks.size + 1) before).2 ++ complaints ++ own.map (fun c => (hat.id, c)) ++
        rest).map fun c => ⟨name, c.1, c.2⟩

theorem outcome_body (t : BlockTree) (hat : Block) :
    Outcome t hat (body t.get? (t.blocks.size + 1) hat).1
      (body t.get? (t.blocks.size + 1) hat).2 where
  body := rfl
  script := by
    intro name
    refine ⟨scriptOf t.get? (t.blocks.size + 1), rfl, ?_⟩
    exact (filing_hats t.get? (t.blocks.size + 1) fun _ => t.isHat_of_mem_hats).1
  warnings := by
    intro name before after hsplit
    have hmem : hat ∈ t.hats := by simp [hsplit]
    obtain ⟨trigger, ht⟩ := Option.isSome_iff_exists.1 (t.isHat_of_mem_hats hmem)
    obtain ⟨rest, hrest⟩ := addHats_snd t.get? (t.blocks.size + 1) after
      (addHat t.get? (t.blocks.size + 1) (hats t.get? (t.blocks.size + 1) before) hat)
    have htree : (tree t).2 = (hats t.get? (t.blocks.size + 1) before).2 ++
        (Compile.body t.get? (t.blocks.size + 1) hat).2 ++
        (file (hats t.get? (t.blocks.size + 1) before).1 hat trigger
          (scriptOf t.get? (t.blocks.size + 1) hat)).2.map (fun c => (hat.id, c)) ++ rest := by
      rw [tree, hats, hsplit, List.foldl_append, List.foldl_cons]
      exact hrest.trans (congrArg (· ++ rest) (addHat_snd ht))
    exact ⟨_, rest, fun c hc => aboutHat_of_file hc, congrArg (List.map _) htree⟩

/-- A script depends on nothing but the blocks that can be come to from its hat. Trees that agree on
these, also on which of them are missing, have the same statements under the hat and complain of the
same, in the same order, whatever else they hold. -/
theorem scripts_are_local {t t' : BlockTree} {key : String} {hat : Block}
    (hhat : t.get? key = some hat) (h : ∀ id, t.Reaches key id → t'.get? id = t.get? id) :
    t'.get? key = some hat ∧
      ∃ stmts complaints, Outcome t hat stmts complaints ∧ Outcome t' hat stmts complaints := by
  refine ⟨(h key .refl).trans hhat, _, _, outcome_body t hat, ?_⟩
  rw [body_eq_of_reaches hhat h]
  exact outcome_body t' hat

end Programs

namespace Sample

/-- The tangled tree among other blocks: a hat above its own, and below that a wait for a block that
is missing in both trees. -/
def crowded : BlockTree :=
  (tangled.insert { block "ahead" .whenFlagClicked [] [] (some "wait") with y := -1 }).insert
    (block "wait" .waitUntil [("CONDITION", "nowhere")] [] (some "fork"))

end Sample

-- The shared fork belongs to the script of the new hat as well, and the old hat comes second there.
theorem scripts_are_local_crowded :
    ∃ stmts complaints,
      Outcome Sample.tangled (Sample.block "hat" .whenFlagClicked [] [] (some "loop"))
        stmts complaints ∧
      Outcome Sample.crowded (Sample.block "hat" .whenFlagClicked [] [] (some "loop"))
        stmts complaints ∧
      complaints = [("fork", .chainLoops), ("nowhere", .chainMissing), ("hat", .chainLoops)] := by
  have hhat : Sample.tangled.get? "hat" =
      some (Sample.block "hat" .whenFlagClicked [] [] (some "loop")) := by decide +kernel
  have hagree : ∀ id ∈ ["hat", "loop", "mouse", "fork", "nowhere"],
      Sample.crowded.get? id = Sample.tangled.get? id := by decide +kernel
  have hclosed : ∀ link ∈ Sample.tangled.links,
      link.source ∈ ["hat", "loop", "mouse", "fork", "nowhere"] →
      link.target ∈ ["hat", "loop", "mouse", "fork", "nowhere"] := by decide +kernel
  obtain ⟨-, stmts, complaints, ht, ht'⟩ := scripts_are_local hhat fun id hid =>
    hagree id (mem_of_reaches (by decide) hclosed hid)
  refine ⟨stmts, complaints, ht, ht', ?_⟩
  have hbody : (body Sample.tangled.get? (Sample.tangled.blocks.size + 1)
      (Sample.block "hat" .whenFlagClicked [] [] (some "loop"))).2 =
      [("fork", .chainLoops), ("nowhere", .chainMissing), ("hat", .chainLoops)] := by decide +kernel
  rw [ht.body] at hbody
  exact hbody

end SpriteStage.Compile
