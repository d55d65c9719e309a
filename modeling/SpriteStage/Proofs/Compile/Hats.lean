import Mathlib
import SpriteStage.Proofs.Compile.Complaints
import SpriteStage.Proofs.Compile.Grammar

/-!
Hats and scripts.

The hats of a tree are taken in the order of the canvas, and the script under each of them is put in
one bucket of the program or dropped (`Filing`). One more hat changes one bucket at its end
(`Filing.add`), so every bucket holds the scripts of its hats in the order of the canvas, and no
script is lost or there twice.
-/

namespace SpriteStage

/-! ### The order of the canvas -/

namespace Block

/-- Row, column and id. -/
def place (b : Block) : ℤ ×ₗ ℤ ×ₗ String :=
  toLex (Number.orderKey b.y, toLex (Number.orderKey b.x, b.id))

theorem precedes_iff {a b : Block} : a.precedes b = true ↔ a.place ≤ b.place := by
  simp [precedes, place, Prod.Lex.toLex_le_toLex]

end Block

namespace BlockTree

theorem hatsOf_perm (blocks : List Block) :
    (hatsOf blocks).Perm (blocks.filter fun b => b.topLevel && b.kind.isHat) :=
  List.mergeSort_perm _ _

theorem hats_perm (t : BlockTree) :
    t.hats.Perm (t.blocks.values.filter fun b => b.topLevel && b.kind.isHat) :=
  hatsOf_perm t.blocks.values

theorem hatsOf_pairwise (blocks : List Block) :
    (hatsOf blocks).Pairwise (fun a b => a.place ≤ b.place) := by
  have htrans : ∀ a b c : Block, a.precedes b → b.precedes c → a.precedes c := by
    intro a b c hab hbc
    rw [Block.precedes_iff] at hab hbc ⊢
    exact hab.trans hbc
  have htotal : ∀ a b : Block, a.precedes b || b.precedes a := by
    intro a b
    rw [Bool.or_eq_true, Block.precedes_iff, Block.precedes_iff]
    exact le_total a.place b.place
  exact (List.pairwise_mergeSort htrans htotal _).imp Block.precedes_iff.1

theorem hats_pairwise (t : BlockTree) : t.hats.Pairwise (fun a b => a.place ≤ b.place) :=
  hatsOf_pairwise t.blocks.values

theorem isHat_of_mem_hats {t : BlockTree} {hat : Block} (h : hat ∈ t.hats) :
    hat.kind.isHat = true := by
  have hmem := List.mem_filter.1 ((hats_perm t).mem_iff.1 h)
  simp_all

end BlockTree

theorem EntityProgram.length_scripts (p : EntityProgram) : p.scripts.length = p.scriptCount := by
  simp only [scripts, scriptCount, List.length_append]

namespace Compile

/-! ### Buckets -/

/-- Where the script under a hat belongs. -/
inductive Bucket where
  | start
  | key (name : String)
  | click
  | message (name : String)
  /-- Messages without a name; nothing is kept here. -/
  | nameless
  deriving DecidableEq

def Bucket.ofHat? (hat : Block) : Option Bucket :=
  hat.kind.trigger?.map fun
    | .start => .start
    | .key => .key (((hat.fieldText? "KEY_OPTION").map Name.key).getD "space")
    | .click => .click
    | .message => ((hat.fieldText? "BROADCAST_OPTION").map .message).getD .nameless

/-- The hats of a bucket, in their order. -/
def Bucket.of (k : Bucket) (hats : List Block) : List Block :=
  hats.filter (Bucket.ofHat? · = some k)

/-- The hats whose scripts are not kept: start hats after the first, and message hats without a
name. -/
def dropped (hats : List Block) : List Block :=
  (Bucket.start.of hats).drop 1 ++ Bucket.nameless.of hats

namespace Bucket

theorem of_append (k : Bucket) (hats : List Block) (hat : Block) :
    k.of (hats ++ [hat]) = k.of hats ++ if ofHat? hat = some k then [hat] else [] := by
  rw [of, of, List.filter_append, List.filter_singleton]
  split <;> simp_all

variable {k : Bucket} {hat : Block}

theorem of_append_self (h : ofHat? hat = some k) (hats : List Block) :
    k.of (hats ++ [hat]) = k.of hats ++ [hat] := by
  rw [of_append, if_pos h]

theorem of_append_of_ne {other : Bucket} (h : ofHat? hat = some k) (hne : k ≠ other)
    (hats : List Block) : other.of (hats ++ [hat]) = other.of hats := by
  rw [of_append, if_neg (by simpa [h] using hne), List.append_nil]

end Bucket

/-- A list that is kept only if it holds something. -/
def filled {α : Type} : List α → Option (List α)
  | [] => none
  | l => some l

theorem getD_filled {α : Type} (l : List α) : (filled l).getD [] = l := by
  cases l <;> rfl

theorem filled_concat {α : Type} (l : List α) (a : α) : filled (l ++ [a]) = some (l ++ [a]) := by
  cases l <;> rfl

/-! ### Dictionaries of scripts -/

theorem get?_addScript (d : Dict (List Script)) (key name : String) (s : Script) :
    (addScript d key s).get? name =
      if key = name then some ((d.get? key).getD [] ++ [s]) else d.get? name :=
  Dict.get?_insert d key name _

/-- The scripts of a dictionary with their names. -/
def named (d : Dict (List Script)) : List (String × Script) :=
  d.entries.flatMap fun (name, scripts) => scripts.map (name, ·)

theorem map_snd_named (d : Dict (List Script)) : (named d).map (·.2) = d.values.flatten := by
  simp [named, Dict.values, List.flatMap_def, Function.comp_def]

theorem perm_named_addScript (d : Dict (List Script)) (key : String) (s : Script) :
    (named (addScript d key s)).Perm (named d ++ [(key, s)]) := by
  obtain ⟨l, hl⟩ := d
  show ((Dict.insertIn key ((Dict.lookupIn key l).getD [] ++ [s]) l).flatMap
    fun (name, scripts) => scripts.map (name, ·)).Perm
      ((l.flatMap fun (name, scripts) => scripts.map (name, ·)) ++ [(key, s)])
  induction l with
  | nil => exact .refl _
  | cons entry rest ih =>
    obtain ⟨k, v⟩ := entry
    obtain ⟨hbelow, hrest⟩ := List.pairwise_cons.1 hl
    rw [Dict.insertIn]
    split
    next hlt =>
      have hnone : Dict.lookupIn key ((k, v) :: rest) = none := by
        refine Dict.lookupIn_eq_none fun p hp => ?_
        rcases List.mem_cons.1 hp with rfl | hp
        · exact hlt
        · exact hlt.trans (hbelow p hp)
      rw [hnone]
      exact @List.perm_append_comm _ [(key, s)] _
    · split
      next heq =>
        subst heq
        rw [Dict.lookupIn, if_pos rfl]
        simp only [List.flatMap_cons, Option.getD_some, List.map_append, List.append_assoc]
        exact List.perm_append_comm.append_left _
      next hne =>
        have hskip : Dict.lookupIn key ((k, v) :: rest) = Dict.lookupIn key rest := by
          rw [Dict.lookupIn, if_neg (Ne.symm hne)]
        rw [hskip]
        simp only [List.flatMap_cons, List.append_assoc]
        exact (ih hrest).append_left _

theorem perm_values_addScript (d : Dict (List Script)) (key : String) (s : Script) :
    (addScript d key s).values.flatten.Perm (d.values.flatten ++ [s]) := by
  have hnamed := (perm_named_addScript d key s).map (·.2)
  rwa [List.map_append, map_snd_named, map_snd_named] at hnamed

/-! ### Filing -/

/-- Every hat has had its script put into the program or dropped, in the order of the hats. -/
structure Filing (script : Block → Script) (hats : List Block) (p : EntityProgram) : Prop where
  start : p.onStart = (Bucket.start.of hats).head?.map script
  key : ∀ name, p.onKey.get? name = filled (((Bucket.key name).of hats).map script)
  click : p.onClick = (Bucket.click.of hats).map script
  message : ∀ name, p.onMessage.get? name = filled (((Bucket.message name).of hats).map script)
  all : (hats.map script).Perm (p.scripts ++ (dropped hats).map script)

theorem perm_scripts_key (p : EntityProgram) (name : String) (s : Script) :
    { p with onKey := addScript p.onKey name s }.scripts.Perm (p.scripts ++ [s]) := by
  have hvalues := Multiset.coe_eq_coe.2 (perm_values_addScript p.onKey name s)
  rw [← Multiset.coe_eq_coe]
  simp only [EntityProgram.scripts, ← Multiset.coe_add] at hvalues ⊢
  rw [hvalues]
  ac_rfl

theorem perm_scripts_message (p : EntityProgram) (name : String) (s : Script) :
    { p with onMessage := addScript p.onMessage name s }.scripts.Perm (p.scripts ++ [s]) := by
  simp only [EntityProgram.scripts, List.append_assoc]
  exact (perm_values_addScript p.onMessage name s).append_left _ |>.append_left _ |>.append_left _

theorem perm_scripts_click (p : EntityProgram) (s : Script) :
    { p with onClick := p.onClick ++ [s] }.scripts.Perm (p.scripts ++ [s]) := by
  rw [← Multiset.coe_eq_coe]
  simp only [EntityProgram.scripts, ← Multiset.coe_add]
  ac_rfl

theorem perm_scripts_start {p : EntityProgram} (h : p.onStart = none) (s : Script) :
    { p with onStart := some s }.scripts.Perm (p.scripts ++ [s]) := by
  rw [← Multiset.coe_eq_coe]
  simp only [EntityProgram.scripts, h, Option.toList_some, Option.toList_none, List.nil_append,
    ← Multiset.coe_add]
  ac_rfl

namespace Filing

variable {script : Block → Script} {hats : List Block} {p q : EntityProgram} {hat : Block}
  {k : Bucket}

/-! A hat of another bucket leaves a bucket alone. -/

theorem start_of_ne (h : Filing script hats p) (hk : Bucket.ofHat? hat = some k)
    (hne : k ≠ .start) : p.onStart = (Bucket.start.of (hats ++ [hat])).head?.map script := by
  rw [Bucket.of_append_of_ne hk hne]
  exact h.start

theorem key_of_ne (h : Filing script hats p) (hk : Bucket.ofHat? hat = some k) {name : String}
    (hne : k ≠ .key name) :
    p.onKey.get? name = filled (((Bucket.key name).of (hats ++ [hat])).map script) := by
  rw [Bucket.of_append_of_ne hk hne]
  exact h.key name

theorem click_of_ne (h : Filing script hats p) (hk : Bucket.ofHat? hat = some k)
    (hne : k ≠ .click) : p.onClick = (Bucket.click.of (hats ++ [hat])).map script := by
  rw [Bucket.of_append_of_ne hk hne]
  exact h.click

theorem message_of_ne (h : Filing script hats p) (hk : Bucket.ofHat? hat = some k) {name : String}
    (hne : k ≠ .message name) :
    p.onMessage.get? name = filled (((Bucket.message name).of (hats ++ [hat])).map script) := by
  rw [Bucket.of_append_of_ne hk hne]
  exact h.message name

/-! All scripts, if the new one is kept and if it is dropped. -/

theorem all_of_kept (h : Filing script hats p) (hd : dropped (hats ++ [hat]) = dropped hats)
    (hq : q.scripts.Perm (p.scripts ++ [script hat])) :
    ((hats ++ [hat]).map script).Perm (q.scripts ++ (dropped (hats ++ [hat])).map script) := by
  have hall := Multiset.coe_eq_coe.2 h.all
  have hscripts := Multiset.coe_eq_coe.2 hq
  rw [hd, ← Multiset.coe_eq_coe]
  simp only [List.map_append, ← Multiset.coe_add] at hall hscripts ⊢
  rw [hall, hscripts]
  exact add_right_comm _ _ _

theorem all_of_dropped (h : Filing script hats p)
    (hd : (dropped (hats ++ [hat])).Perm (dropped hats ++ [hat])) :
    ((hats ++ [hat]).map script).Perm (p.scripts ++ (dropped (hats ++ [hat])).map script) := by
  rw [List.map_append]
  refine (h.all.append_right _).trans ?_
  rw [List.append_assoc, ← List.map_append]
  exact (hd.symm.map script).append_left _

theorem dropped_of_ne (hk : Bucket.ofHat? hat = some k) (hs : k ≠ .start) (hn : k ≠ .nameless) :
    dropped (hats ++ [hat]) = dropped hats := by
  rw [dropped, Bucket.of_append_of_ne hk hs, Bucket.of_append_of_ne hk hn, dropped]

/-! One lemma for each bucket that a hat can go into. -/

theorem add_firstStart (h : Filing script hats p) (hk : Bucket.ofHat? hat = some .start)
    (hp : p.onStart = none) :
    Filing script (hats ++ [hat]) { p with onStart := some (script hat) } := by
  have hstarts : Bucket.start.of hats = [] := by simpa [h.start] using hp
  have hself : Bucket.start.of (hats ++ [hat]) = [hat] := by
    rw [Bucket.of_append_self hk, hstarts, List.nil_append]
  have hnameless : Bucket.nameless.of (hats ++ [hat]) = Bucket.nameless.of hats :=
    Bucket.of_append_of_ne hk (by decide) hats
  refine ⟨?_, fun name => h.key_of_ne hk (by simp), h.click_of_ne hk (by simp),
    fun name => h.message_of_ne hk (by simp), h.all_of_kept ?_ (perm_scripts_start hp _)⟩
  · rw [hself]
    rfl
  · rw [dropped, hself, hnameless, dropped, hstarts]
    rfl

theorem add_otherStart (h : Filing script hats p) (hk : Bucket.ofHat? hat = some .start)
    {first : Script} (hp : p.onStart = some first) : Filing script (hats ++ [hat]) p := by
  have hself := Bucket.of_append_self hk hats
  have hnameless : Bucket.nameless.of (hats ++ [hat]) = Bucket.nameless.of hats :=
    Bucket.of_append_of_ne hk (by decide) hats
  cases hstarts : Bucket.start.of hats with
  | nil => simp [h.start, hstarts] at hp
  | cons start rest =>
    refine ⟨?_, fun name => h.key_of_ne hk (by simp), h.click_of_ne hk (by simp),
      fun name => h.message_of_ne hk (by simp), h.all_of_dropped ?_⟩
    · rw [hself, h.start, hstarts]
      rfl
    · simp only [dropped, hself, hnameless, hstarts, List.cons_append, List.drop_succ_cons,
        List.drop_zero, List.append_assoc]
      exact (@List.perm_append_comm _ [hat] _).append_left rest

theorem add_key (h : Filing script hats p) {key : String}
    (hk : Bucket.ofHat? hat = some (.key key)) :
    Filing script (hats ++ [hat]) { p with onKey := addScript p.onKey key (script hat) } := by
  refine ⟨h.start_of_ne hk (by simp), fun name => ?_, h.click_of_ne hk (by simp),
    fun name => h.message_of_ne hk (by simp),
    h.all_of_kept (dropped_of_ne hk (by simp) (by simp)) (perm_scripts_key p key (script hat))⟩
  simp only [get?_addScript]
  split
  next heq =>
    subst heq
    rw [Bucket.of_append_self hk, List.map_append, h.key, getD_filled]
    exact (filled_concat _ _).symm
  next hne => exact h.key_of_ne hk (by simpa using hne)

theorem add_click (h : Filing script hats p) (hk : Bucket.ofHat? hat = some .click) :
    Filing script (hats ++ [hat]) { p with onClick := p.onClick ++ [script hat] } := by
  refine ⟨h.start_of_ne hk (by simp), fun name => h.key_of_ne hk (by simp), ?_,
    fun name => h.message_of_ne hk (by simp),
    h.all_of_kept (dropped_of_ne hk (by simp) (by simp)) (perm_scripts_click p (script hat))⟩
  rw [Bucket.of_append_self hk, List.map_append, ← h.click]
  rfl

theorem add_message (h : Filing script hats p) {message : String}
    (hk : Bucket.ofHat? hat = some (.message message)) :
    Filing script (hats ++ [hat])
      { p with onMessage := addScript p.onMessage message (script hat) } := by
  refine ⟨h.start_of_ne hk (by simp), fun name => h.key_of_ne hk (by simp),
    h.click_of_ne hk (by simp), fun name => ?_,
    h.all_of_kept (dropped_of_ne hk (by simp) (by simp))
      (perm_scripts_message p message (script hat))⟩
  simp only [get?_addScript]
  split
  next heq =>
    subst heq
    rw [Bucket.of_append_self hk, List.map_append, h.message, getD_filled]
    exact (filled_concat _ _).symm
  next hne => exact h.message_of_ne hk (by simpa using hne)

theorem add_nameless (h : Filing script hats p) (hk : Bucket.ofHat? hat = some .nameless) :
    Filing script (hats ++ [hat]) p := by
  refine ⟨h.start_of_ne hk (by simp), fun name => h.key_of_ne hk (by simp),
    h.click_of_ne hk (by simp), fun name => h.message_of_ne hk (by simp), h.all_of_dropped ?_⟩
  have hstarts : Bucket.start.of (hats ++ [hat]) = Bucket.start.of hats :=
    Bucket.of_append_of_ne hk (by decide) hats
  rw [dropped, hstarts, Bucket.of_append_self hk, ← List.append_assoc, dropped]

theorem add (h : Filing script hats p) {trigger : Trigger} (ht : hat.kind.trigger? = some trigger) :
    Filing script (hats ++ [hat]) (file p hat trigger (script hat)).1 := by
  cases trigger with
  | start =>
    have hk : Bucket.ofHat? hat = some .start := by simp [Bucket.ofHat?, ht]
    cases hp : p.onStart with
    | none =>
      simp only [file, hp, Option.isNone_none, if_true]
      exact h.add_firstStart hk hp
    | some first =>
      simp only [file, hp, Option.isNone_some, Bool.false_eq_true, if_false]
      exact h.add_otherStart hk hp
  | key =>
    have hk : Bucket.ofHat? hat =
        some (.key (((hat.fieldText? "KEY_OPTION").map Name.key).getD "space")) := by
      simp [Bucket.ofHat?, ht]
    have hfile : (file p hat .key (script hat)).1 = { p with
        onKey := addScript p.onKey (((hat.fieldText? "KEY_OPTION").map Name.key).getD "space")
          (script hat) } := by
      unfold file
      cases hat.fieldText? "KEY_OPTION" <;> rfl
    rw [hfile]
    exact h.add_key hk
  | click => exact h.add_click (by simp [Bucket.ofHat?, ht])
  | message =>
    cases hname : hat.fieldText? "BROADCAST_OPTION" with
    | some message =>
      simp only [file, hname]
      exact h.add_message (by simp [Bucket.ofHat?, ht, hname])
    | none =>
      simp only [file, hname]
      exact h.add_nameless (by simp [Bucket.ofHat?, ht, hname])

end Filing

/-! ### Complaints about hats -/

/-- The key hats that do not say which key. -/
def keyless (hats : List Block) : List Block :=
  hats.filter fun hat => hat.kind.trigger? = some .key && (hat.fieldText? "KEY_OPTION").isNone

/-- The hats a complaint is about. -/
def culprits (hats : List Block) : Complaint → List Block
  | .extraStart => (Bucket.start.of hats).drop 1
  | .withoutMessage => Bucket.nameless.of hats
  | .withoutKey => keyless hats
  | _ => []

section File

variable {p : EntityProgram} {hat : Block} {trigger : Trigger} {s : Script}

theorem extraStart_mem_file : Complaint.extraStart ∈ (file p hat trigger s).2 ↔
    trigger = .start ∧ p.onStart ≠ none := by
  fun_cases file p hat trigger s <;> simp_all

theorem withoutKey_mem_file : Complaint.withoutKey ∈ (file p hat trigger s).2 ↔
    trigger = .key ∧ hat.fieldText? "KEY_OPTION" = none := by
  fun_cases file p hat trigger s <;> simp_all

theorem withoutMessage_mem_file : Complaint.withoutMessage ∈ (file p hat trigger s).2 ↔
    trigger = .message ∧ hat.fieldText? "BROADCAST_OPTION" = none := by
  fun_cases file p hat trigger s <;> simp_all

/-- There is at most one complaint. -/
theorem filter_file (c : Complaint) : (file p hat trigger s).2.filter (· = c) =
    if c ∈ (file p hat trigger s).2 then [c] else [] := by
  have hshort : (file p hat trigger s).2.length ≤ 1 := by
    fun_cases file p hat trigger s <;> simp
  rcases hown : (file p hat trigger s).2 with _ | ⟨own, _ | ⟨_, _⟩⟩
  · rfl
  · by_cases hc : own = c
    · simp [hc]
    · simp [hc, Ne.symm hc]
  · simp [hown] at hshort

theorem culprits_append (s : Script) {script : Block → Script} {hats : List Block}
    (h : Filing script hats p) (ht : hat.kind.trigger? = some trigger) {c : Complaint}
    (hc : c.aboutHat = true) :
    culprits (hats ++ [hat]) c =
      culprits hats c ++ if c ∈ (file p hat trigger s).2 then [hat] else [] := by
  cases c with
  | extraStart =>
    have hbucket : Bucket.ofHat? hat = some .start ↔ trigger = .start := by
      cases trigger <;> simp [Bucket.ofHat?, ht]
      cases hat.fieldText? "BROADCAST_OPTION" <;> simp
    have hstart := h.start
    simp only [extraStart_mem_file, culprits, Bucket.of_append, hbucket]
    cases hstarts : Bucket.start.of hats with
    | nil =>
      have hnone : p.onStart = none := by simpa [hstarts] using hstart
      by_cases hs : trigger = .start <;> simp [hs, hnone]
    | cons first rest =>
      have hsome : p.onStart ≠ none := by simp [hstart, hstarts]
      by_cases hs : trigger = .start <;> simp [hs, hsome]
  | withoutKey => simp [withoutKey_mem_file, culprits, keyless, ht, List.filter_singleton]
  | withoutMessage =>
    have hbucket : Bucket.ofHat? hat = some .nameless ↔
        trigger = .message ∧ hat.fieldText? "BROADCAST_OPTION" = none := by
      cases trigger <;> simp [Bucket.ofHat?, ht]
      cases hat.fieldText? "BROADCAST_OPTION" <;> simp
    simp only [withoutMessage_mem_file, culprits, Bucket.of_append, hbucket]
  | _ => cases hc

end File

/-! ### All hats -/

def scriptOf (lookup : String → Option Block) (fuel : Nat) (hat : Block) : Script :=
  ⟨hat.id, (body lookup fuel hat).1⟩

section AddHat

variable {lookup : String → Option Block} {fuel : Nat}
  {state : EntityProgram × List (String × Complaint)} {hat : Block} {trigger : Trigger}

theorem addHat_fst (ht : hat.kind.trigger? = some trigger) :
    (addHat lookup fuel state hat).1 = (file state.1 hat trigger (scriptOf lookup fuel hat)).1 := by
  rw [addHat, ht]
  rfl

theorem addHat_snd (ht : hat.kind.trigger? = some trigger) :
    (addHat lookup fuel state hat).2 = state.2 ++ (body lookup fuel hat).2 ++
      (file state.1 hat trigger (scriptOf lookup fuel hat)).2.map fun c => (hat.id, c) := by
  rw [addHat, ht]
  rfl

theorem filter_addHat (ht : hat.kind.trigger? = some trigger) {c : Complaint}
    (hc : c.aboutHat = true) :
    (addHat lookup fuel state hat).2.filter (·.2 = c) = state.2.filter (·.2 = c) ++
      if c ∈ (file state.1 hat trigger (scriptOf lookup fuel hat)).2 then [(hat.id, c)] else [] := by
  have hbody : (body lookup fuel hat).2.filter (·.2 = c) = [] := by
    refine List.filter_eq_nil_iff.2 fun other hother heq => ?_
    have hoff := complains_body lookup fuel hat other hother
    rw [of_decide_eq_true heq, hc] at hoff
    cases hoff
  have hown : ((file state.1 hat trigger (scriptOf lookup fuel hat)).2.map fun c =>
      (hat.id, c)).filter (·.2 = c) =
      if c ∈ (file state.1 hat trigger (scriptOf lookup fuel hat)).2 then [(hat.id, c)] else [] := by
    rw [List.filter_map]
    refine (congrArg _ (filter_file c)).trans ?_
    split <;> rfl
  rw [addHat_snd ht, List.filter_append, List.filter_append, hbody, hown, List.append_nil]

end AddHat

theorem filing_hats (lookup : String → Option Block) (fuel : Nat) {blocks : List Block}
    (hhats : ∀ hat ∈ blocks, hat.kind.isHat = true) :
    Filing (scriptOf lookup fuel) blocks (hats lookup fuel blocks).1 ∧
      ∀ c : Complaint, c.aboutHat = true →
        (hats lookup fuel blocks).2.filter (·.2 = c) = (culprits blocks c).map fun b => (b.id, c) := by
  induction blocks using List.reverseRecOn with
  | nil => exact ⟨⟨rfl, fun _ => rfl, rfl, fun _ => rfl, .refl _⟩, fun c _ => by cases c <;> rfl⟩
  | append_singleton before hat ih =>
    obtain ⟨hfiling, hcomplaints⟩ := ih fun b hb => hhats b (List.mem_append_left _ hb)
    obtain ⟨trigger, ht⟩ := Option.isSome_iff_exists.1 (hhats hat (by simp))
    have hhats' : hats lookup fuel (before ++ [hat]) =
        addHat lookup fuel (hats lookup fuel before) hat := List.foldl_concat ..
    refine ⟨?_, fun c hc => ?_⟩
    · rw [hhats', addHat_fst ht]
      exact hfiling.add ht
    · rw [hhats', filter_addHat ht hc, hcomplaints c hc,
        culprits_append (scriptOf lookup fuel hat) hfiling ht hc, List.map_append]
      congr 1
      split <;> rfl

/-- Every hat of an entity has its script in one place of the program, in the order of the canvas,
or it is dropped with a warning: start hats after the first, and message hats without a name. A key
hat without a key is kept, with a warning, under the space key. -/
theorem hats_are_filed (name : String) (t : BlockTree) :
    (t.hats.Perm (t.blocks.values.filter fun b => b.topLevel && b.kind.isHat) ∧
      t.hats.Pairwise fun a b => a.place ≤ b.place) ∧
    Filing (scriptOf t.get? (t.blocks.size + 1)) t.hats (entity name t).1 ∧
    (entity name t).2.filter (·.complaint = .extraStart) =
      ((Bucket.start.of t.hats).drop 1).map (fun hat => ⟨name, hat.id, .extraStart⟩) ∧
    (entity name t).2.filter (·.complaint = .withoutMessage) =
      (Bucket.nameless.of t.hats).map (fun hat => ⟨name, hat.id, .withoutMessage⟩) ∧
    (entity name t).2.filter (·.complaint = .withoutKey) =
      (keyless t.hats).map (fun hat => ⟨name, hat.id, .withoutKey⟩) ∧
    (entity name t).1.scriptCount + (dropped t.hats).length = t.hats.length := by
  obtain ⟨hfiling, hcomplaints⟩ :=
    filing_hats t.get? (t.blocks.size + 1) fun _ => t.isHat_of_mem_hats
  have hwarnings : ∀ c : Complaint, c.aboutHat = true →
      (entity name t).2.filter (·.complaint = c) =
        (culprits t.hats c).map fun hat => ⟨name, hat.id, c⟩ := by
    intro c hc
    have hfilter := congrArg (List.map fun x => (⟨name, x.1, x.2⟩ : Warning)) (hcomplaints c hc)
    rw [List.map_map] at hfilter
    exact List.filter_map.trans hfilter
  refine ⟨⟨t.hats_perm, t.hats_pairwise⟩, hfiling, hwarnings _ rfl, hwarnings _ rfl,
    hwarnings _ rfl, ?_⟩
  have hlength := hfiling.all.length_eq
  rw [List.length_map, List.length_append, List.length_map, EntityProgram.length_scripts] at hlength
  exact hlength.symm

end Compile

end SpriteStage
