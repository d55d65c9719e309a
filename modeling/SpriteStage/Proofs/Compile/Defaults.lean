import Mathlib
import SpriteStage.Proofs.Compile.Locality
import SpriteStage.Proofs.Compile.Uses

/-!
Defaults of value slots.

Every value slot that a plan names is in the table of its kind (`Plan.isTabled_statement`,
`Plan.isTabled_reporter`). `Reads` and `Makes` say what slots and chains come to, with the blocks
that were met before and after: a slot comes to what its table says if it is empty, leads nowhere or
back, or holds a block without a value. All scripts come about in this way, at any depth, so nobody
ever complains that a default is missing.
-/

namespace SpriteStage.Compile

/-! ### The table -/

def Complaint.isWithoutDefault : Complaint → Bool
  | .withoutDefault .. => true
  | _ => false

namespace Plan

variable {α : Type}

/-- Every value slot of the plan is in the table of the kind, and the plan itself does not complain
of one that is not. -/
def isTabled (plan : Plan α) (kind : BlockKind) : Bool :=
  plan.values.all (fun slot => (kind.slotDefault? slot).isSome) &&
    plan.faults.all fun c => !c.isWithoutDefault

theorem isTabled_statement (b : Block) : (statement b).isTabled b.kind = true := by
  unfold statement
  generalize b.kind = kind
  cases kind with
  | setVariableTo | changeVariableBy | showVariable | hideVariable =>
    unfold named
    cases b.fieldText? "VARIABLE" <;> rfl
  | _ => rfl

theorem isTabled_reporter (b : Block) : (reporter b).isTabled b.kind = true := by
  unfold reporter
  generalize b.kind = kind
  cases kind with
  | readVariable =>
    unfold named
    cases b.fieldText? "VARIABLE" <;> rfl
  | mathOp =>
    simp only
    split <;> rfl
  | _ => rfl

theorem exists_row {plan : Plan α} {kind : BlockKind} (h : plan.isTabled kind = true)
    {slot : String} (hslot : slot ∈ plan.values) : ∃ v, kind.slotDefault? slot = some v := by
  obtain ⟨hrows, -⟩ := Bool.and_eq_true_iff.1 h
  exact Option.isSome_iff_exists.1 (List.all_eq_true.1 hrows slot hslot)

theorem faults_of_isTabled {plan : Plan α} {kind : BlockKind} (h : plan.isTabled kind = true) :
    ∀ c ∈ plan.faults, c.isWithoutDefault = false := by
  obtain ⟨-, hfaults⟩ := Bool.and_eq_true_iff.1 h
  intro c hc
  simpa using List.all_eq_true.1 hfaults c hc

end Plan

/-! ### What slots and chains come to -/

mutual

/-- `Reads lookup seen b slot e seen'`: if the blocks `seen` were met before, the value slot of the
block comes to `e`, and after that `seen'` were met. -/
inductive Reads (lookup : String → Option Block) :
    List String → Block → String → Expr → List String → Prop where
  | empty {seen : List String} {b : Block} {slot : String} {v : Value}
      (row : b.kind.slotDefault? slot = some v) (hslot : b.valueSlot? slot = none) :
      Reads lookup seen b slot (.literal v) seen
  | revisited {seen : List String} {b : Block} {slot id : String} {v : Value}
      (row : b.kind.slotDefault? slot = some v) (hslot : b.valueSlot? slot = some id)
      (hseen : id ∈ seen) :
      Reads lookup seen b slot (.literal v) seen
  | dangling {seen : List String} {b : Block} {slot id : String} {v : Value}
      (row : b.kind.slotDefault? slot = some v) (hslot : b.valueSlot? slot = some id)
      (hnew : id ∉ seen) (hnone : lookup id = none) :
      Reads lookup seen b slot (.literal v) (id :: seen)
  | valueless {seen seen' : List String} {b child : Block} {slot id : String} {v : Value}
      {value : String → Expr} {body : String → List Stmt}
      (row : b.kind.slotDefault? slot = some v) (hslot : b.valueSlot? slot = some id)
      (hnew : id ∉ seen) (hchild : lookup id = some child)
      (hvalues : ReadsAll lookup (id :: seen) child (Plan.reporter child).values
        ((Plan.reporter child).values.map value) seen')
      (hbuild : (Plan.reporter child).build value body = none) :
      Reads lookup seen b slot (.literal v) seen'
  | filled {seen seen' : List String} {b child : Block} {slot id : String} {v : Value} {e : Expr}
      {value : String → Expr} {body : String → List Stmt}
      (row : b.kind.slotDefault? slot = some v) (hslot : b.valueSlot? slot = some id)
      (hnew : id ∉ seen) (hchild : lookup id = some child)
      (hvalues : ReadsAll lookup (id :: seen) child (Plan.reporter child).values
        ((Plan.reporter child).values.map value) seen')
      (hbuild : (Plan.reporter child).build value body = some e) :
      Reads lookup seen b slot e seen'

/-- The slots of a block, one after the other. -/
inductive ReadsAll (lookup : String → Option Block) :
    List String → Block → List String → List Expr → List String → Prop where
  | nil {seen : List String} {b : Block} : ReadsAll lookup seen b [] [] seen
  | cons {seen seen₁ seen₂ : List String} {b : Block} {slot : String} {slots : List String}
      {e : Expr} {es : List Expr} (first : Reads lookup seen b slot e seen₁)
      (rest : ReadsAll lookup seen₁ b slots es seen₂) :
      ReadsAll lookup seen b (slot :: slots) (e :: es) seen₂

end

mutual

/-- `Makes lookup seen start stmts seen'`: if the blocks `seen` were met before, the chain from
`start` on comes to `stmts`, and after that `seen'` were met. -/
inductive Makes (lookup : String → Option Block) :
    List String → Option String → List Stmt → List String → Prop where
  | nil {seen : List String} : Makes lookup seen none [] seen
  | revisited {seen : List String} {id : String} (hseen : id ∈ seen) :
      Makes lookup seen (some id) [] seen
  | dangling {seen : List String} {id : String} (hnew : id ∉ seen) (hnone : lookup id = none) :
      Makes lookup seen (some id) [] (id :: seen)
  | block {seen seen₁ seen₂ seen₃ : List String} {id : String} {b : Block}
      {value : String → Expr} {body : String → List Stmt} {rest : List Stmt} (hnew : id ∉ seen)
      (hb : lookup id = some b)
      (hvalues : ReadsAll lookup (id :: seen) b (Plan.statement b).values
        ((Plan.statement b).values.map value) seen₁)
      (hbodies : MakesAll lookup seen₁ b (Plan.statement b).bodies
        ((Plan.statement b).bodies.map body) seen₂)
      (hrest : Makes lookup seen₂ b.next rest seen₃) :
      Makes lookup seen (some id) ((Plan.statement b).build value body ++ rest) seen₃

/-- The bodies of a block, one after the other. -/
inductive MakesAll (lookup : String → Option Block) :
    List String → Block → List String → List (List Stmt) → List String → Prop where
  | nil {seen : List String} {b : Block} : MakesAll lookup seen b [] [] seen
  | cons {seen seen₁ seen₂ : List String} {b : Block} {slot : String} {slots : List String}
      {stmts : List Stmt} {bodies : List (List Stmt)}
      (first : Makes lookup seen (b.statementSlot? slot) stmts seen₁)
      (rest : MakesAll lookup seen₁ b slots bodies seen₂) :
      MakesAll lookup seen b (slot :: slots) (stmts :: bodies) seen₂

end

/-! ### Steps -/

/-- No more than `n` blocks have not been met, and no default was missing so far. -/
structure Progress.Clean (known : Finset String) (n : Nat) (p : Progress) : Prop where
  unmet : p.Unmet known n
  defaults : ∀ c ∈ p.complaints, c.2.isWithoutDefault = false

namespace Step

variable {α β : Type} {known : Finset String} {n : Nat} {p : Progress}

/-- From `p` on, the result and the blocks met after it are as `R` says. -/
structure Takes (known : Finset String) (n : Nat) (p : Progress) (x : Step α)
    (R : α → List String → Prop) : Prop where
  result : R (x.run p).1 (x.run p).2.visited
  clean : (x.run p).2.Clean known n

theorem takes_pure {a : α} {R : α → List String → Prop} (hp : p.Clean known n)
    (h : R a p.visited) : Takes known n p (pure a) R :=
  ⟨h, hp⟩

theorem Takes.bind {x : Step α} {f : α → Step β} {Q : α → List String → Prop}
    {R : β → List String → Prop} (hx : Takes known n p x Q)
    (hf : ∀ a (q : Progress), q.Clean known n → Q a q.visited → Takes known n q (f a) R) :
    Takes known n p (x >>= f) R := by
  obtain ⟨hresult, hclean⟩ := hf _ _ hx.clean hx.result
  exact ⟨hresult, hclean⟩

theorem takes_complain (hp : p.Clean known n) (id : String) {c : Complaint}
    (h : c.isWithoutDefault = false) :
    Takes known n p (complain id c) fun _ seen => seen = p.visited := by
  refine ⟨rfl, hp.unmet, fun c' hc' => ?_⟩
  rcases List.mem_append.1 hc' with hold | hnew
  · exact hp.defaults c' hold
  · cases List.mem_singleton.1 hnew
    exact h

theorem takes_faults (hp : p.Clean known n) (id : String) {faults : List Complaint}
    (h : ∀ c ∈ faults, c.isWithoutDefault = false) :
    Takes known n p (faults.forM (complain id)) fun _ seen => seen = p.visited := by
  induction faults generalizing p with
  | nil => exact takes_pure hp rfl
  | cons c rest ih =>
    refine (takes_complain hp id (h c List.mem_cons_self)).bind fun _ q hq hseen => ?_
    rw [← hseen]
    exact ih hq fun other hother => h other (List.mem_cons_of_mem c hother)

theorem takes_defaultOf {b : Block} {slot : String} {v : Value} {R : Expr → List String → Prop}
    (hp : p.Clean known n) (row : b.kind.slotDefault? slot = some v)
    (h : R (.literal v) p.visited) : Takes known n p (defaultOf b slot) R := by
  have hvalue : b.kind.slotDefault slot = v := by
    rw [BlockKind.slotDefault, row]
    rfl
  simp only [defaultOf, row, Option.isNone_some, hvalue]
  exact takes_pure hp h

theorem takes_gather {ask : String → Step β} {R : List String → String → β → List String → Prop}
    {P : List String → List String → List β → List String → Prop}
    (hnil : ∀ seen, P seen [] [] seen)
    (hcons : ∀ {seen seen₁ seen₂ slot slots x xs}, R seen slot x seen₁ → P seen₁ slots xs seen₂ →
      P seen (slot :: slots) (x :: xs) seen₂)
    {slots : List String} (hslots : slots.Nodup)
    (hask : ∀ slot ∈ slots, ∀ q : Progress, q.Clean known n →
      Takes known n q (ask slot) (R q.visited slot))
    (hp : p.Clean known n) (f : String → β) :
    Takes known n p (Plan.gather ask slots f) fun g seen =>
      P p.visited slots (slots.map g) seen := by
  induction slots generalizing p with
  | nil => exact takes_pure hp (hnil p.visited)
  | cons slot rest ih =>
    obtain ⟨hslot, hrest⟩ := List.nodup_cons.1 hslots
    refine (hask slot List.mem_cons_self p hp).bind fun x q hq hx => ?_
    refine (ih hrest (fun other hother => hask other (List.mem_cons_of_mem slot hother)) hq).bind
      fun g r hr hg => takes_pure hr ?_
    have hsame : (slot :: rest).map (fun other => if other = slot then x else g other) =
        x :: rest.map g := by
      rw [List.map_cons, if_pos rfl]
      refine congrArg (x :: ·) (List.map_congr_left fun other hother => if_neg ?_)
      rintro rfl
      exact hslot hother
    rw [hsame]
    exact hcons hx hg

theorem Takes.mono {x : Step α} {R : α → List String → Prop} {k : Nat} (h : Takes known k p x R)
    (hk : k ≤ n) : Takes known n p x R :=
  ⟨h.result, h.clean.unmet.trans hk, h.clean.defaults⟩

theorem takes_visit {id : String} {f : Bool → Step β} {R : β → List String → Prop}
    (hmet : id ∈ p.visited → Takes known n p (f false) R)
    (hnew : id ∉ p.visited → Takes known n { p with visited := id :: p.visited } (f true) R) :
    Takes known n p (visit id >>= f) R := by
  have hbind : (visit id >>= f).run p =
      (f ((visit id).run p).1).run ((visit id).run p).2 := rfl
  by_cases hid : id ∈ p.visited
  · obtain ⟨hresult, hclean⟩ := hmet hid
    rw [run_visit_of_mem hid] at hbind
    exact ⟨hbind ▸ hresult, hbind ▸ hclean⟩
  · obtain ⟨hresult, hclean⟩ := hnew hid
    rw [run_visit_of_notMem hid] at hbind
    exact ⟨hbind ▸ hresult, hbind ▸ hclean⟩

end Step

open Step

section Links

variable {α : Type} {known : Finset String} {lookup : String → Option Block} {n : Nat}
  {p : Progress}

theorem takes_carryOut {plan : Plan α} {b : Block} (htidy : plan.Tidy)
    (htabled : plan.isTabled b.kind = true) {chain : Option String → Step (List Stmt)}
    {input : Block → String → Step Expr}
    (hinput : ∀ slot v, b.kind.slotDefault? slot = some v → ∀ q : Progress, q.Clean known n →
      Takes known n q (input b slot) (Reads lookup q.visited b slot))
    (hchain : ∀ slot ∈ plan.bodies, ∀ q : Progress, q.Clean known n →
      Takes known n q (chain (b.statementSlot? slot))
        (Makes lookup q.visited (b.statementSlot? slot)))
    (hp : p.Clean known n) (value : String → Expr) (body : String → List Stmt) :
    Takes known n p (plan.carryOut chain input b value body) fun a seen =>
      ∃ (value : String → Expr) (body : String → List Stmt) (seen₁ : List String),
        a = plan.build value body ∧
        ReadsAll lookup p.visited b plan.values (plan.values.map value) seen₁ ∧
        MakesAll lookup seen₁ b plan.bodies (plan.bodies.map body) seen := by
  have hrows : ∀ slot ∈ plan.values, ∀ q : Progress, q.Clean known n →
      Takes known n q (input b slot) (Reads lookup q.visited b slot) := by
    intro slot hslot
    obtain ⟨v, row⟩ := Plan.exists_row htabled hslot
    exact hinput slot v row
  refine (takes_gather (R := fun seen => Reads lookup seen b)
    (P := fun seen => ReadsAll lookup seen b) (fun _ => .nil) .cons htidy.values hrows hp
    value).bind fun value q hq hvalues => ?_
  refine (takes_gather (R := fun seen slot => Makes lookup seen (b.statementSlot? slot))
    (P := fun seen => MakesAll lookup seen b) (fun _ => .nil) .cons htidy.bodies
    hchain hq body).bind fun body r hr hbodies => ?_
  refine (takes_faults hr b.id (Plan.faults_of_isTabled htabled)).bind fun _ s hs hseen => ?_
  refine takes_pure hs ⟨value, body, q.visited, rfl, hvalues, ?_⟩
  rw [hseen]
  exact hbodies

theorem clean_cons (hp : p.Clean known n) (id : String) :
    Progress.Clean known n { p with visited := id :: p.visited } :=
  ⟨unmet_cons id hp.unmet, hp.defaults⟩

theorem takes_input (hknown : ∀ id b, lookup id = some b → id ∈ known) {fuel : Nat}
    (hn : n < fuel) {b : Block} {slot : String} {v : Value}
    (row : b.kind.slotDefault? slot = some v) (hp : p.Clean known n) :
    Takes known n p (input lookup fuel b slot) (Reads lookup p.visited b slot) := by
  -- Whoever enters one more block has one unmet block less, and as much less fuel.
  induction n using Nat.strong_induction_on generalizing fuel b slot v p with
  | _ n ih =>
    obtain ⟨fuel, rfl⟩ : ∃ m, fuel = m + 1 := ⟨fuel - 1, by omega⟩
    rw [input]
    cases hslot : b.valueSlot? slot with
    | none => exact takes_defaultOf hp row (.empty row hslot)
    | some id =>
      refine takes_visit (fun hseen => ?_) fun hnew => ?_
      · refine (takes_complain hp id rfl).bind fun _ q hq hvisited => takes_defaultOf hq row ?_
        rw [hvisited]
        exact .revisited row hslot hseen
      · simp only [if_true]
        cases hchild : lookup id with
        | none =>
          refine (takes_complain (clean_cons hp id) id rfl).bind fun _ q hq hvisited =>
            takes_defaultOf hq row ?_
          rw [hvisited]
          exact .dangling row hslot hnew hchild
        | some child =>
          obtain ⟨k, rfl, hunmet⟩ := unmet_cons_of_mem (hknown id child hchild) hnew hp.unmet
          refine Takes.mono ?_ (Nat.le_succ k)
          simp only
          rw [Plan.reporter_eq (fun _ => pure []) _ _ (fun _ => .literal default) fun _ => []]
          have hnone : ∀ inner ∈ (Plan.reporter child).bodies, ∀ q : Progress, q.Clean known k →
              Takes known k q (pure []) (Makes lookup q.visited (child.statementSlot? inner)) := by
            rw [Plan.bodies_reporter]
            simp
          refine (takes_carryOut (Plan.tidy_reporter child) (Plan.isTabled_reporter child)
            (fun inner w hrow q hq => ih k (by omega) (by omega) hrow hq) hnone
            ⟨hunmet, hp.defaults⟩ _ _).bind ?_
          rintro made q hq ⟨value, body, seen, rfl, hvalues, hbodies⟩
          rw [Plan.bodies_reporter] at hbodies
          cases hbodies
          cases hbuild : (Plan.reporter child).build value body with
          | some e => exact takes_pure hq (.filled row hslot hnew hchild hvalues hbuild)
          | none => exact takes_defaultOf hq row (.valueless row hslot hnew hchild hvalues hbuild)

theorem takes_chain (hknown : ∀ id b, lookup id = some b → id ∈ known) {fuel : Nat}
    (hn : n < fuel) {start : Option String} (hp : p.Clean known n) :
    Takes known n p (chain lookup fuel start) (Makes lookup p.visited start) := by
  induction n using Nat.strong_induction_on generalizing fuel start p with
  | _ n ih =>
    obtain ⟨fuel, rfl⟩ : ∃ m, fuel = m + 1 := ⟨fuel - 1, by omega⟩
    cases start with
    | none => exact takes_pure hp .nil
    | some id =>
      rw [chain]
      refine takes_visit (fun hseen => ?_) fun hnew => ?_
      · refine (takes_complain hp id rfl).bind fun _ q hq hvisited => takes_pure hq ?_
        rw [hvisited]
        exact .revisited hseen
      · simp only [if_true]
        cases hb : lookup id with
        | none =>
          refine (takes_complain (clean_cons hp id) id rfl).bind fun _ q hq hvisited =>
            takes_pure hq ?_
          rw [hvisited]
          exact .dangling hnew hb
        | some b =>
          obtain ⟨k, rfl, hunmet⟩ := unmet_cons_of_mem (hknown id b hb) hnew hp.unmet
          refine Takes.mono ?_ (Nat.le_succ k)
          simp only
          rw [Plan.statement_eq _ _ b (fun _ => .literal default) fun _ => []]
          refine (takes_carryOut (Plan.tidy_statement b) (Plan.isTabled_statement b)
            (fun slot v hrow q hq => takes_input hknown (by omega) hrow hq)
            (fun slot _ q hq => ih k (by omega) (by omega) hq) ⟨hunmet, hp.defaults⟩ _ _).bind ?_
          rintro first q hq ⟨value, body, seen, rfl, hvalues, hbodies⟩
          refine (ih k (by omega) (by omega) hq).bind fun rest r hr hrest => ?_
          exact takes_pure hr (.block hnew hb hvalues hbodies hrest)

end Links

/-! ### Programs -/

theorem takes_body (t : BlockTree) (hat : Block) :
    (∃ seen, Makes t.get? [hat.id] hat.next (body t.get? (t.blocks.size + 1) hat).1 seen) ∧
      ∀ c ∈ (body t.get? (t.blocks.size + 1) hat).2, c.2.isWithoutDefault = false := by
  have hknown : ∀ id b, t.get? id = some b → id ∈ t.blocks.keys.toFinset :=
    fun id b hb => List.mem_toFinset.2 (BlockTree.mem_keys_of_get? hb)
  have hclean : Progress.Clean t.blocks.keys.toFinset t.blocks.size ⟨[hat.id], []⟩ :=
    ⟨(Finset.card_le_card Finset.sdiff_subset).trans (card_keys_le t), by simp⟩
  have htakes : Takes _ _ _ (chain t.get? (t.blocks.size + 1) hat.next) _ :=
    takes_chain hknown (Nat.lt_succ_self _) hclean
  obtain ⟨hmakes, hafter⟩ := htakes
  exact ⟨⟨_, hmakes⟩, hafter.defaults⟩

theorem isWithoutDefault_of_aboutHat {c : Complaint} (h : c.aboutHat = true) :
    c.isWithoutDefault = false := by
  cases c <;> first | rfl | cases h

theorem defaults_addHats (t : BlockTree) (blocks : List Block)
    {state : EntityProgram × List (String × Complaint)}
    (h : ∀ c ∈ state.2, c.2.isWithoutDefault = false) :
    ∀ c ∈ (blocks.foldl (addHat t.get? (t.blocks.size + 1)) state).2,
      c.2.isWithoutDefault = false := by
  induction blocks generalizing state with
  | nil => exact h
  | cons hat rest ih =>
    refine ih fun c hc => ?_
    cases ht : hat.kind.trigger? with
    | none => exact h c (by simpa [addHat, ht] using hc)
    | some trigger =>
      rw [addHat_snd ht, List.mem_append, List.mem_append] at hc
      rcases hc with (hold | hbody) | hown
      · exact h c hold
      · exact (takes_body t hat).2 c hbody
      · obtain ⟨complaint, hcomplaint, rfl⟩ := List.mem_map.1 hown
        exact isWithoutDefault_of_aboutHat (aboutHat_of_file hcomplaint)

/-- All other complaints are worded otherwise. -/
theorem head?_message {c : Complaint} (h : c.isWithoutDefault = false) :
    c.message.toList.head? ≠ some 'n' := by
  have hparts : ∀ s mid last : String, s.toList.head? = some 'u' →
      (s ++ mid ++ last).toList.head? ≠ some 'n' := by
    intro s mid last hs
    rw [String.toList_append, String.toList_append, List.head?_append, List.head?_append, hs]
    simp
  cases c with
  | withoutDefault slot opcode => cases h
  | unsupportedStatement opcode => exact hparts "unsupported opcode '" opcode "' skipped" rfl
  | unsupportedReporter opcode => exact hparts "unsupported reporter '" opcode "'; default used" rfl
  | unknownFunction label =>
    exact hparts "unknown math function '" label "', value passed through" rfl
  | _ => decide

/-- The block makes nothing of its slots, whatever they hold. -/
def Valueless (b : Block) : Prop :=
  ∀ value body, (Plan.reporter b).build value body = none

/-- The slot holds no value: it is empty, leads back to a block that was met, or nowhere, or to a
block without a value. -/
def Vacant (lookup : String → Option Block) (seen : List String) (b : Block) (slot : String) :
    Prop :=
  ∀ id, b.valueSlot? slot = some id → id ∈ seen ∨ ∀ child, lookup id = some child → Valueless child

theorem Reads.eq_default {lookup : String → Option Block} {seen seen' : List String} {b : Block}
    {slot : String} {e : Expr} (h : Reads lookup seen b slot e seen') :
    ∃ v, b.kind.slotDefault? slot = some v ∧ (Vacant lookup seen b slot → e = .literal v) := by
  cases h with
  | empty row _ | revisited row _ _ | dangling row _ _ _ | valueless row _ _ _ _ _ =>
    exact ⟨_, row, fun _ => rfl⟩
  | filled row hslot hnew hchild _ hbuild =>
    refine ⟨_, row, fun hvacant => ?_⟩
    have hnone := (hvacant _ hslot).resolve_left hnew _ hchild
    rw [hnone] at hbuild
    cases hbuild

/-- Every value slot that is looked into, at any depth of any script, is in the table of its kind,
and comes to what the table says if it holds no value. So no warning says that a default is
missing. -/
theorem slots_have_defaults (name : String) (t : BlockTree) :
    (∀ hat ∈ t.hats, ∃ seen,
      Makes t.get? [hat.id] hat.next (body t.get? (t.blocks.size + 1) hat).1 seen) ∧
    (∀ s ∈ (entity name t).1.scripts, ∃ hat ∈ t.hats,
      s = ⟨hat.id, (body t.get? (t.blocks.size + 1) hat).1⟩) ∧
    (∀ seen b slot e seen', Reads t.get? seen b slot e seen' →
      ∃ v, b.kind.slotDefault? slot = some v ∧ (Vacant t.get? seen b slot → e = .literal v)) ∧
    ∀ w ∈ (entity name t).2, (∀ slot opcode, w.complaint ≠ .withoutDefault slot opcode) ∧
      ¬ "no default for slot".toList <+: w.complaint.message.toList := by
  refine ⟨fun hat _ => (takes_body t hat).1, fun s hs => mem_scripts_entity hs,
    fun _ _ _ _ _ => Reads.eq_default, fun w hw => ?_⟩
  obtain ⟨c, hc, rfl⟩ := List.mem_map.1 hw
  have hother : c.2.isWithoutDefault = false := defaults_addHats t t.hats (by simp) c hc
  refine ⟨fun slot opcode heq => ?_, fun hwords => head?_message hother ?_⟩
  · have hcomplaint : c.2 = .withoutDefault slot opcode := heq
    rw [hcomplaint] at hother
    cases hother
  · obtain ⟨rest, hrest⟩ := hwords
    have hmessage : c.2.message.toList = "no default for slot".toList ++ rest := hrest.symm
    rw [hmessage, List.head?_append]
    rfl

namespace Sample

/-- A turn by a letter whose slots lead back and nowhere, a size that is a statement, and a wait for
nothing. -/
def gappy : BlockTree :=
  ⟨.ofList [
    ("hat", block "hat" .whenFlagClicked [] [] (some "turn")),
    ("turn", block "turn" .pointInDirection [("DIRECTION", "letter")] [] (some "grow")),
    ("letter", block "letter" .letterOf [("LETTER", "turn"), ("STRING", "nowhere")] [] none),
    ("grow", block "grow" .setSizeTo [("SIZE", "next")] [] (some "wait")),
    ("next", block "next" .nextCostume [] [] none),
    ("wait", block "wait" .waitUntil [] [] none)]⟩

def gappyHat : Block :=
  block "hat" .whenFlagClicked [] [] (some "turn")

end Sample

theorem slots_have_defaults_gappy :
    (∃ seen, Makes Sample.gappy.get? ["hat"] (some "turn")
      [.act (.pointInDirection (.letterOf (.literal (.number 0)) (.literal (.text "")))),
        .act (.setSize (.literal (.number 100))), .waitUntil (.literal (.bool false)) false] seen) ∧
    ((entity "Cat" Sample.gappy).2.map (·.complaint)) =
      [.reporterLoops, .inputMissing, .statementAsValue] := by
  have hhats : Sample.gappy.hats = [Sample.gappyHat] := by cbv
  have hbody : (body Sample.gappy.get? (Sample.gappy.blocks.size + 1) Sample.gappyHat).1 =
      [.act (.pointInDirection (.letterOf (.literal (.number 0)) (.literal (.text "")))),
        .act (.setSize (.literal (.number 100))), .waitUntil (.literal (.bool false)) false] := by
    cbv
  obtain ⟨hmakes, -, -, -⟩ := slots_have_defaults "Cat" Sample.gappy
  refine ⟨?_, by cbv⟩
  rw [← hbody]
  exact hmakes Sample.gappyHat (by rw [hhats]; exact List.mem_singleton_self _)

end SpriteStage.Compile
