import Mathlib
import SpriteStage.Compile.Program
import SpriteStage.Proofs.Compile.Plan

/-!
The form of compiled scripts.

`Compiled` says how the statement lists are put together that compilation gives, whatever the blocks
are. Every list of statements in a script, at any depth, is such a list with the closing statements
of the loop or branch whose body it is (`Compiled.nested`).
-/

namespace SpriteStage

/-- Statements that compilation puts in by itself. -/
def Action.isMark : Action → Bool
  | .syncMouse | .yield => true
  | _ => false

/-! ### Lists in lists -/

def Stmt.bodies : Stmt → List (List Stmt)
  | .act _ | .waitUntil .. => []
  | .repeatTimes _ body | .repeatUntil _ body | .forever body => [body]
  | .branch _ thenBody elseBody => [thenBody, elseBody]

/-- `Nested script owner l`: the list `l` stands in the script, as the body of `owner`, at any
depth; the script itself has no owner. -/
inductive Nested (script : List Stmt) : Option Stmt → List Stmt → Prop where
  | script : Nested script none script
  | body {owner : Option Stmt} {l body : List Stmt} {s : Stmt} (outer : Nested script owner l)
      (hs : s ∈ l) (hbody : body ∈ s.bodies) : Nested script (some s) body

theorem Nested.mem_bodies {script l : List Stmt} {s : Stmt} (h : Nested script (some s) l) :
    l ∈ s.bodies := by
  cases h with
  | body _ _ hbody => exact hbody

def EntityProgram.scripts (p : EntityProgram) : List Script :=
  p.onStart.toList ++ p.onKey.values.flatten ++ p.onClick ++ p.onMessage.values.flatten

theorem EntityProgram.mem_scripts {p : EntityProgram} {s : Script} :
    s ∈ p.scripts ↔ p.onStart = some s ∨ s ∈ p.onKey.values.flatten ∨ s ∈ p.onClick ∨
      s ∈ p.onMessage.values.flatten := by
  simp only [scripts, List.mem_append, Option.mem_toList, or_assoc]

namespace Compile

/-! ### Results of compilation steps -/

namespace Step

variable {α β : Type}

/-- Whatever was met before, the result of the step satisfies `P`. -/
def Ensures (x : Step α) (P : α → Prop) : Prop :=
  ∀ p, P (x.run p).1

theorem ensures_pure {a : α} {P : α → Prop} (h : P a) : Ensures (pure a) P :=
  fun _ => h

theorem ensures_bind {x : Step α} {f : α → Step β} {P : β → Prop} {Q : α → Prop}
    (hx : x.Ensures Q) (hf : ∀ a, Q a → (f a).Ensures P) : Ensures (x >>= f) P :=
  fun p => hf _ (hx p) _

theorem ensures_after {x : Step α} {f : α → Step β} {P : β → Prop} (hf : ∀ a, (f a).Ensures P) :
    Ensures (x >>= f) P :=
  fun _ => hf _ _

theorem ensures_gather {ask : String → Step β} {P : β → Prop} (hask : ∀ slot, (ask slot).Ensures P)
    (slots : List String) {f : String → β} (hf : ∀ slot, P (f slot)) :
    (Plan.gather ask slots f).Ensures fun g => ∀ slot, P (g slot) := by
  induction slots with
  | nil => exact ensures_pure hf
  | cons slot rest ih =>
    refine ensures_bind (hask slot) fun x hx => ensures_bind ih fun g hg => ensures_pure ?_
    intro other
    by_cases h : other = slot
    · simpa only [if_pos h] using hx
    · simpa only [if_neg h] using hg other

end Step

open Step

/-! ### The grammar -/

inductive Compiled : List Stmt → Prop where
  | nil : Compiled []
  | append {l m : List Stmt} (hl : Compiled l) (hm : Compiled m) : Compiled (l ++ m)
  | action (a : Action) (h : a.isMark = false) : Compiled (synced (.act a))
  | waitUntil (condition : Expr) : Compiled [.waitUntil condition condition.readsMouse]
  | repeatTimes (times : Expr) {body : List Stmt} (h : Compiled body) :
      Compiled (synced (.repeatTimes times (yielding body)))
  | repeatUntil (condition : Expr) {body : List Stmt} (h : Compiled body) :
      Compiled (synced (.repeatUntil condition (yielding (body ++ resync condition))))
  | forever {body : List Stmt} (h : Compiled body) : Compiled (synced (.forever (yielding body)))
  | branch (condition : Expr) {l m : List Stmt} (hl : Compiled l) (hm : Compiled m) :
      Compiled (synced (.branch condition (yielding l) (yielding m)))

section Build

variable {value : String → Expr} {body : String → List Stmt}

theorem compiled_perform {a : Action} (h : a.isMark = false) :
    Compiled ((Plan.perform a).build value body) :=
  .action a h

theorem compiled_act {slot : String} {make : Expr → Action} (h : ∀ e, (make e).isMark = false) :
    Compiled ((Plan.act slot make).build value body) :=
  .action _ (h _)

theorem compiled_actTwo {first second : String} {make : Expr → Expr → Action}
    (h : ∀ x y, (make x y).isMark = false) :
    Compiled ((Plan.actTwo first second make).build value body) :=
  .action _ (h _ _)

theorem compiled_named {b : Block} {plan : String → Plan (List Stmt)}
    (h : ∀ name, Compiled ((plan name).build value body)) :
    Compiled ((Plan.named b [] plan).build value body) := by
  unfold Plan.named
  split
  · exact h _
  · exact .nil

theorem compiled_build (b : Block) (h : ∀ slot, Compiled (body slot)) :
    Compiled ((Plan.statement b).build value body) := by
  unfold Plan.statement
  cases b.kind with
  | ifOnEdgeBounce | nextCostume | nextBackdrop | showSprite | hideSprite | stopAllSounds | stop
  | resetTimer => exact compiled_perform rfl
  | goToXY | sayForSecs | thinkForSecs | broadcastAndWait =>
    exact compiled_actTwo fun _ _ => rfl
  | glideSecsToXY => exact .action _ rfl
  | moveSteps | turnRight | turnLeft | changeXBy | setX | changeYBy | setY | pointInDirection | say
  | think | switchCostumeTo | switchBackdropTo | changeSizeBy | setSizeTo | playSound
  | playSoundUntilDone | broadcast | wait => exact compiled_act fun _ => rfl
  | setVariableTo | changeVariableBy => exact compiled_named fun _ => compiled_act fun _ => rfl
  | showVariable | hideVariable => exact compiled_named fun _ => compiled_perform rfl
  | waitUntil => exact .waitUntil _
  | repeatTimes => exact .repeatTimes _ (h _)
  | repeatUntil => exact .repeatUntil _ (h _)
  | forever => exact .forever (h _)
  | ifThen => exact .branch _ (h _) .nil
  | ifElse => exact .branch _ (h _) (h _)
  -- Hats, reporters and unknown blocks are left out.
  | _ => exact .nil

end Build

theorem compiled_statement {chain : Option String → Step (List Stmt)}
    {input : Block → String → Step Expr} (hchain : ∀ start, (chain start).Ensures Compiled)
    (b : Block) : (statement chain input b).Ensures Compiled := by
  have hnil : ∀ slot : String, Compiled ((fun _ => []) slot) := fun _ => .nil
  rw [Plan.statement_eq chain input b (fun _ => .literal default) fun _ => []]
  refine ensures_after fun value => ?_
  refine ensures_bind (ensures_gather (fun slot => hchain _) _ hnil) fun body hbody => ?_
  exact ensures_after fun _ => ensures_pure (compiled_build b hbody)

theorem compiled_chain (lookup : String → Option Block) (fuel : Nat) (start : Option String) :
    (chain lookup fuel start).Ensures Compiled := by
  induction fuel generalizing start with
  | zero => cases start <;> exact ensures_pure .nil
  | succ fuel ih =>
    cases start with
    | none => exact ensures_pure .nil
    | some id =>
      rw [chain]
      refine ensures_after fun isNew => ?_
      cases isNew with
      | false => exact ensures_after fun _ => ensures_pure .nil
      | true =>
        simp only [if_true]
        split
        · refine ensures_bind (compiled_statement ih _) fun first hfirst => ?_
          exact ensures_bind (ih _) fun rest hrest => ensures_pure (hfirst.append hrest)
        · exact ensures_after fun _ => ensures_pure .nil

theorem compiled_body (lookup : String → Option Block) (fuel : Nat) (hat : Block) :
    Compiled (body lookup fuel hat).1 :=
  compiled_chain lookup fuel hat.next ⟨[hat.id], []⟩

/-! ### Programs -/

theorem mem_values_addScript {d : Dict (List Script)} {key : String} {s s' : Script}
    (h : s' ∈ (addScript d key s).values.flatten) : s' = s ∨ s' ∈ d.values.flatten := by
  obtain ⟨scripts, hscripts, hs⟩ := List.mem_flatten.1 h
  obtain ⟨entry, hentry, rfl⟩ := List.mem_map.1 hscripts
  rcases Dict.mem_insertIn hentry with rfl | hold
  · rcases List.mem_append.1 hs with hs | hs
    · cases hget : d.get? key with
      | none =>
        rw [hget] at hs
        cases hs
      | some present =>
        rw [hget] at hs
        have hpresent : present ∈ d.values := List.mem_map_of_mem (Dict.get?_eq_some_iff.1 hget)
        exact .inr (List.mem_flatten.2 ⟨present, hpresent, hs⟩)
    · exact .inl (List.mem_singleton.1 hs)
  · exact .inr (List.mem_flatten.2 ⟨_, List.mem_map_of_mem hold, hs⟩)

/-- Filing a script leaves it out or puts it in one place. -/
inductive Filed (p : EntityProgram) (s : Script) : EntityProgram → Prop where
  | dropped : Filed p s p
  | start : Filed p s { p with onStart := some s }
  | key (key : String) : Filed p s { p with onKey := addScript p.onKey key s }
  | click : Filed p s { p with onClick := p.onClick ++ [s] }
  | message (name : String) : Filed p s { p with onMessage := addScript p.onMessage name s }

theorem filed_file (p : EntityProgram) (hat : Block) (trigger : Trigger) (s : Script) :
    Filed p s (file p hat trigger s).1 := by
  cases trigger with
  | start =>
    simp only [file]
    split
    · exact .start
    · exact .dropped
  | key =>
    simp only [file]
    split <;> exact .key _
  | click => exact .click
  | message =>
    simp only [file]
    split
    · exact .message _
    · exact .dropped

theorem Filed.mem_scripts {p p' : EntityProgram} {s s' : Script} (h : Filed p s p')
    (hs : s' ∈ p'.scripts) : s' = s ∨ s' ∈ p.scripts := by
  rw [EntityProgram.mem_scripts] at hs ⊢
  cases h with
  | dropped => exact .inr hs
  | start => exact hs.imp (fun hs => (Option.some.inj hs).symm) .inr
  | key key =>
    rcases hs with hs | hs | hs
    · exact .inr (.inl hs)
    · exact (mem_values_addScript hs).imp_right fun hs => .inr (.inl hs)
    · exact .inr (.inr (.inr hs))
  | click =>
    rcases hs with hs | hs | hs | hs
    · exact .inr (.inl hs)
    · exact .inr (.inr (.inl hs))
    · rcases List.mem_append.1 hs with hs | hs
      · exact .inr (.inr (.inr (.inl hs)))
      · exact .inl (List.mem_singleton.1 hs)
    · exact .inr (.inr (.inr (.inr hs)))
  | message name =>
    rcases hs with hs | hs | hs | hs
    · exact .inr (.inl hs)
    · exact .inr (.inr (.inl hs))
    · exact .inr (.inr (.inr (.inl hs)))
    · exact (mem_values_addScript hs).imp_right fun hs => .inr (.inr (.inr hs))

theorem mem_scripts_addHats {lookup : String → Option Block} {fuel : Nat} {s : Script}
    (blocks : List Block) {state : EntityProgram × List (String × Complaint)}
    (h : s ∈ (blocks.foldl (addHat lookup fuel) state).1.scripts) :
    s ∈ state.1.scripts ∨ ∃ hat ∈ blocks, s = ⟨hat.id, (body lookup fuel hat).1⟩ := by
  induction blocks generalizing state with
  | nil => exact .inl h
  | cons hat rest ih =>
    rcases ih h with h | ⟨other, hother, hs⟩
    · unfold addHat at h
      split at h
      · exact .inl h
      · rcases (filed_file _ _ _ _).mem_scripts h with h | h
        · exact .inr ⟨hat, List.mem_cons_self, h⟩
        · exact .inl h
    · exact .inr ⟨other, List.mem_cons_of_mem _ hother, hs⟩

/-- Every script of an entity is what stands under one of its hats. -/
theorem mem_scripts_entity {name : String} {t : BlockTree} {s : Script}
    (h : s ∈ (entity name t).1.scripts) :
    ∃ hat ∈ t.hats, s = ⟨hat.id, (body t.get? (t.blocks.size + 1) hat).1⟩ :=
  (mem_scripts_addHats t.hats h).resolve_left nofun

theorem compiled_script {name : String} {t : BlockTree} {s : Script}
    (h : s ∈ (entity name t).1.scripts) : Compiled s.body := by
  obtain ⟨hat, -, rfl⟩ := mem_scripts_entity h
  exact compiled_body _ _ hat

/-! ### Bodies -/

/-- The statements at the end of a body, by the statement to which it belongs. -/
def closing : Option Stmt → List Stmt
  | none => []
  | some (.repeatUntil condition _) => resync condition ++ [.act .yield]
  | some _ => [.act .yield]

theorem mark_of_mem_closing {owner : Option Stmt} {s : Stmt} (h : s ∈ closing owner) :
    s = .act .syncMouse ∨ s = .act .yield := by
  unfold closing resync at h
  split at h
  · cases h
  · split at h
    · simpa using h
    · exact .inr (List.mem_singleton.1 h)
  · exact .inr (List.mem_singleton.1 h)

theorem eq_of_mem_synced {s s' : Stmt} (h : s' ∈ synced s) : s' = .act .syncMouse ∨ s' = s := by
  unfold synced at h
  split at h
  · simpa using h
  · exact .inr (List.mem_singleton.1 h)

theorem eq_of_body_of_synced {s s' : Stmt} {body : List Stmt} (h : s' ∈ synced s)
    (hbody : body ∈ s'.bodies) : s' = s := by
  rcases eq_of_mem_synced h with rfl | rfl
  · cases hbody
  · rfl

theorem Compiled.body {l : List Stmt} (h : Compiled l) {s : Stmt} (hs : s ∈ l) {body : List Stmt}
    (hbody : body ∈ s.bodies) : ∃ inner, Compiled inner ∧ body = inner ++ closing (some s) := by
  induction h with
  | nil => cases hs
  | append _ _ ihl ihm => exact (List.mem_append.1 hs).elim ihl ihm
  | action a _ =>
    cases eq_of_body_of_synced hs hbody
    cases hbody
  | waitUntil condition =>
    cases List.mem_singleton.1 hs
    cases hbody
  | repeatTimes times h _ | forever h _ =>
    cases eq_of_body_of_synced hs hbody
    cases List.mem_singleton.1 hbody
    exact ⟨_, h, rfl⟩
  | repeatUntil condition h _ =>
    cases eq_of_body_of_synced hs hbody
    cases List.mem_singleton.1 hbody
    exact ⟨_, h, List.append_assoc _ _ _⟩
  | branch condition hl hm _ _ =>
    cases eq_of_body_of_synced hs hbody
    rcases List.mem_cons.1 hbody with rfl | hbody
    · exact ⟨_, hl, rfl⟩
    · cases List.mem_singleton.1 hbody
      exact ⟨_, hm, rfl⟩

theorem Compiled.nested {script l : List Stmt} {owner : Option Stmt} (hscript : Compiled script)
    (h : Nested script owner l) : ∃ inner, Compiled inner ∧ l = inner ++ closing owner := by
  induction h with
  | script => exact ⟨script, hscript, (List.append_nil script).symm⟩
  | @body owner l body s outer hs hbody ih =>
    obtain ⟨inner, hinner, rfl⟩ := ih
    rcases List.mem_append.1 hs with hs | hs
    · exact hinner.body hs hbody
    · rcases mark_of_mem_closing hs with rfl | rfl <;> cases hbody

/-! ### A tangled tree -/

namespace Sample

def block (id : String) (kind : BlockKind) (values bodies : List (String × String))
    (next : Option String) : Block where
  id := id
  opcode := kind.name
  kind := kind
  fields := .empty
  valueSlots := .ofList (values.map fun p => (p.1, some p.2))
  statementSlots := .ofList (bodies.map fun p => (p.1, some p.2))
  next := next
  topLevel := kind.isHat
  x := 0
  y := 0

/-- A loop over the mouse that goes on with its own hat; it holds a fork whose one branch is the
fork again and whose other branch is missing. -/
def tangled : BlockTree :=
  ⟨.ofList [
    ("hat", block "hat" .whenFlagClicked [] [] (some "loop")),
    ("loop",
      block "loop" .repeatUntil [("CONDITION", "mouse")] [("SUBSTACK", "fork")] (some "hat")),
    ("mouse", block "mouse" .mouseX [] [] none),
    ("fork", block "fork" .ifElse [] [("SUBSTACK", "fork"), ("SUBSTACK2", "nowhere")] none)]⟩

def fork : Stmt :=
  .branch (.literal (.bool false)) [.act .yield] [.act .yield]

def loop : Stmt :=
  .repeatUntil (.sense .mouseX) [fork, .act .syncMouse, .act .yield]

theorem mem_scripts_tangled :
    ⟨"hat", [.act .syncMouse, loop]⟩ ∈ (entity "Cat" tangled).1.scripts := by
  have hstart : (entity "Cat" tangled).1.onStart = some ⟨"hat", [.act .syncMouse, loop]⟩ := by cbv
  exact EntityProgram.mem_scripts.2 (.inl hstart)

theorem nested_loop :
    Nested [.act .syncMouse, loop] (some loop) [fork, .act .syncMouse, .act .yield] :=
  .body .script (List.mem_cons_of_mem _ List.mem_cons_self) List.mem_cons_self

end Sample

end Compile

end SpriteStage
