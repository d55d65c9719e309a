import SpriteStage.Machine.Task
import SpriteStage.Proofs.Message.Listeners

/-!
The tree of what can be stopped: the run, a scope for each entity in it, and the tasks below the
scopes.

This is all that the scheduler keeps of who may run. Its operations are stated here by themselves,
with the invariant that all of them keep: a task that has not been stopped hangs from the scope of
its entity, the scope from the run, and nothing that is new has been stopped before.
-/

namespace SpriteStage

/-- A task as far as stopping is concerned. -/
structure Leaf where
  id : TaskId
  entity : EntityId
  token : Token
  deriving DecidableEq, Repr

structure ScopeTree where
  running : Bool
  /-- How many entities there are. -/
  size : Nat
  run : Token
  scopes : List (EntityId × Token)
  stopped : List Token
  nextSerial : Nat
  nextTask : TaskId
  leaves : List Leaf

theorem eq_of_pairwise_lt {α : Type} {f : α → Nat} {l : List α}
    (h : l.Pairwise fun a b => f a < f b) {a b : α} (ha : a ∈ l) (hb : b ∈ l) (he : f a = f b) :
    a = b := by
  induction l with
  | nil => cases ha
  | cons first rest ih =>
    obtain ⟨hfirst, hrest⟩ := List.pairwise_cons.1 h
    rcases List.mem_cons.1 ha with rfl | hm <;> rcases List.mem_cons.1 hb with rfl | hm'
    · rfl
    · exact absurd he (Nat.ne_of_lt (hfirst b hm'))
    · exact absurd he.symm (Nat.ne_of_lt (hfirst a hm))
    · exact ih hrest hm hm'

namespace ScopeTree

def isStopped (s : ScopeTree) (t : Token) : Bool :=
  s.stopped.any (·.isPrefixOf t)

/-! ### Operations -/

def stop (s : ScopeTree) (t : Token) : ScopeTree :=
  { s with stopped := t :: s.stopped }

def halt (s : ScopeTree) : ScopeTree :=
  { s with running := false }.stop s.run

def openScope (s : ScopeTree) (id : EntityId) : ScopeTree :=
  { s with
    scopes := (id, s.run ++ [s.nextSerial]) :: s.scopes.filter (·.1 != id)
    nextSerial := s.nextSerial + 1 }

def stopEntity (s : ScopeTree) (id : EntityId) : ScopeTree :=
  match s.scopes.lookup id with
  | some old => (s.openScope id).stop old
  | none => s.openScope id

def stopOthers (s : ScopeTree) (id : EntityId) (except : TaskId) : ScopeTree :=
  (s.leaves.filter fun l => l.entity == id && l.id != except).foldl (fun s l => s.stop l.token) s

def spawn (s : ScopeTree) (id : EntityId) : ScopeTree :=
  match s.scopes.lookup id with
  | none => s
  | some scope =>
    if s.isStopped scope then s
    else
      { s with
        leaves := s.leaves ++ [⟨s.nextTask, id, scope ++ [s.nextTask]⟩]
        nextTask := s.nextTask + 1 }

def remove (s : ScopeTree) (id : TaskId) : ScopeTree :=
  { s with leaves := s.leaves.filter (·.id != id) }

/-- The run ends, and other entities take the place of those there were. -/
def load (s : ScopeTree) (size : Nat) : ScopeTree :=
  { s.halt with size, scopes := [] }

/-- The run ends, and another begins that has no scopes yet. -/
def restart (s : ScopeTree) : ScopeTree :=
  { s.halt with
    running := true
    run := [s.nextSerial]
    nextSerial := s.nextSerial + 1
    scopes := [] }

def start (s : ScopeTree) : ScopeTree :=
  (List.range s.size).foldl openScope s.restart

/-! ### Stopped places -/

variable {s : ScopeTree}

theorem isStopped_iff {t : Token} : s.isStopped t = true ↔ ∃ u ∈ s.stopped, u <+: t := by
  simp [isStopped]

theorem isStopped_of_prefix {t u : Token} (h : t <+: u) (ht : s.isStopped t = true) :
    s.isStopped u = true := by
  obtain ⟨v, hv, hvt⟩ := isStopped_iff.1 ht
  exact isStopped_iff.2 ⟨v, hv, hvt.trans h⟩

theorem isStopped_concat {t : Token} {k : Nat} :
    s.isStopped (t ++ [k]) = true ↔ t ++ [k] ∈ s.stopped ∨ s.isStopped t = true := by
  simp only [isStopped_iff, List.prefix_concat_iff]
  constructor
  · rintro ⟨u, hu, rfl | hut⟩
    · exact .inl hu
    · exact .inr ⟨u, hu, hut⟩
  · rintro (h | ⟨u, hu, hut⟩)
    · exact ⟨_, h, .inl rfl⟩
    · exact ⟨u, hu, .inr hut⟩

theorem isStopped_stop (s : ScopeTree) (t u : Token) :
    (s.stop t).isStopped u = (t.isPrefixOf u || s.isStopped u) := rfl

theorem isStopped_stop_eq_false {t u : Token} :
    (s.stop t).isStopped u = false ↔ ¬ t <+: u ∧ s.isStopped u = false := by
  rw [isStopped_stop, Bool.or_eq_false_iff, ← List.isPrefixOf_iff_prefix, Bool.not_eq_true]

/-! ### The invariant -/

/-- The place has been given out, if these are the next serial number and the next task. -/
def Issued (nextSerial : Nat) (nextTask : TaskId) : Token → Prop
  | [run] => run < nextSerial
  | [_, scope] => scope < nextSerial
  | [_, _, task] => task < nextTask
  | _ => False

/-- The entity has a scope in which scripts can start. -/
def IsOpen (s : ScopeTree) (id : EntityId) : Prop :=
  ∃ scope, s.scopes.lookup id = some scope ∧ s.isStopped scope = false

def Live (s : ScopeTree) (l : Leaf) : Prop :=
  l ∈ s.leaves ∧ s.isStopped l.token = false

structure Sound (s : ScopeTree) : Prop where
  running : s.running = !s.isStopped s.run
  run_issued : ∃ r < s.nextSerial, s.run = [r]
  scope : ∀ id scope, (id, scope) ∈ s.scopes →
    id < s.size ∧ ∃ k < s.nextSerial, scope = s.run ++ [k]
  scope_inj : ∀ id id' scope, (id, scope) ∈ s.scopes → (id', scope) ∈ s.scopes → id = id'
  stopped_issued : ∀ t ∈ s.stopped, Issued s.nextSerial s.nextTask t
  leaf : ∀ l ∈ s.leaves, l.id < s.nextTask ∧ ∃ r k, l.token = [r, k, l.id]
  leaves_apart : s.leaves.Pairwise fun l l' => l.id < l'.id
  attached : ∀ l ∈ s.leaves, s.isStopped l.token = false →
    ∃ scope, s.scopes.lookup l.entity = some scope ∧ l.token = scope ++ [l.id]

/-- In a run scripts of every entity can start. -/
def Covered (s : ScopeTree) : Prop :=
  s.running = true → ∀ id < s.size, s.IsOpen id

theorem Issued.mono {a a' b b' : Nat} {t : Token} (h : Issued a b t) (ha : a ≤ a') (hb : b ≤ b') :
    Issued a' b' t := by
  match t, h with
  | [r], h => exact Nat.lt_of_lt_of_le h ha
  | [_, k], h => exact Nat.lt_of_lt_of_le h ha
  | [_, _, i], h => exact Nat.lt_of_lt_of_le h hb

theorem mem_of_lookup {l : List (EntityId × Token)} {id : EntityId} {scope : Token}
    (h : l.lookup id = some scope) : (id, scope) ∈ l := by
  obtain ⟨l₁, l₂, rfl, -⟩ := List.lookup_eq_some_iff.1 h
  simp

theorem lookup_openScope_self (s : ScopeTree) (id : EntityId) :
    (s.openScope id).scopes.lookup id = some (s.run ++ [s.nextSerial]) := by
  simp [openScope]

theorem lookup_openScope_of_ne (s : ScopeTree) {id other : EntityId} (h : other ≠ id) :
    (s.openScope id).scopes.lookup other = s.scopes.lookup other := by
  have hne : (other == id) = false := beq_false_of_ne h
  simp only [openScope, List.lookup_cons, hne]
  exact lookup_filter_ne h s.scopes

theorem stopEntity_eq {id : EntityId} {old : Token} (ho : s.scopes.lookup id = some old) :
    s.stopEntity id = (s.stop old).openScope id := by
  simp only [stopEntity, ho]
  rfl

/-! ### What is new has not been stopped -/

namespace Sound

theorem isStopped_nil (h : s.Sound) : s.isStopped [] = false := by
  rw [Bool.eq_false_iff]
  intro hs
  obtain ⟨u, hu, hp⟩ := isStopped_iff.1 hs
  rw [List.prefix_nil] at hp
  subst hp
  exact h.stopped_issued [] hu

theorem isStopped_concat_eq_false (h : s.Sound) {t : Token} {k : Nat} (ht : s.isStopped t = false)
    (hk : ¬ Issued s.nextSerial s.nextTask (t ++ [k])) : s.isStopped (t ++ [k]) = false := by
  rw [Bool.eq_false_iff]
  intro hs
  rcases isStopped_concat.1 hs with hm | hp
  · exact hk (h.stopped_issued _ hm)
  · rw [ht] at hp
    cases hp

theorem isStopped_newRun (h : s.Sound) : s.isStopped [s.nextSerial] = false :=
  h.isStopped_concat_eq_false (t := []) h.isStopped_nil (Nat.lt_irrefl s.nextSerial)

theorem isStopped_newScope (h : s.Sound) (hr : s.isStopped s.run = false) :
    s.isStopped (s.run ++ [s.nextSerial]) = false := by
  refine h.isStopped_concat_eq_false hr ?_
  obtain ⟨r, _, hrun⟩ := h.run_issued
  rw [hrun]
  exact Nat.lt_irrefl s.nextSerial

theorem scope_shape (h : s.Sound) {id : EntityId} {scope : Token}
    (hs : s.scopes.lookup id = some scope) : ∃ r k, scope = [r, k] ∧ s.run = [r] ∧ k < s.nextSerial := by
  obtain ⟨r, _, hrun⟩ := h.run_issued
  obtain ⟨_, k, hk, hscope⟩ := h.scope id scope (mem_of_lookup hs)
  refine ⟨r, k, ?_, hrun, hk⟩
  rw [hrun] at hscope
  exact hscope

theorem isStopped_newTask (h : s.Sound) {id : EntityId} {scope : Token} {task : TaskId}
    (hs : s.scopes.lookup id = some scope) (ho : s.isStopped scope = false)
    (ht : s.nextTask ≤ task) : s.isStopped (scope ++ [task]) = false := by
  refine h.isStopped_concat_eq_false ho ?_
  obtain ⟨r, k, rfl, -⟩ := h.scope_shape hs
  exact Nat.not_lt.2 ht

/-! ### Preservation -/

theorem stop (h : s.Sound) {t : Token} (ht : Issued s.nextSerial s.nextTask t)
    (hr : ¬ t <+: s.run) : (s.stop t).Sound where
  running := by
    have hp : t.isPrefixOf s.run = false := by
      rw [Bool.eq_false_iff]
      exact fun hc => hr (List.isPrefixOf_iff_prefix.1 hc)
    rw [show (s.stop t).run = s.run from rfl, isStopped_stop, hp]
    exact h.running
  run_issued := h.run_issued
  scope := h.scope
  scope_inj := h.scope_inj
  stopped_issued := by
    intro u hu
    rcases List.mem_cons.1 hu with rfl | hu
    · exact ht
    · exact h.stopped_issued u hu
  leaf := h.leaf
  leaves_apart := h.leaves_apart
  attached := fun l hl hs => h.attached l hl (isStopped_stop_eq_false.1 hs).2

theorem run_prefix (h : s.Sound) {l : Leaf} (hl : l ∈ s.leaves) (hs : s.isStopped l.token = false) :
    s.run <+: l.token := by
  obtain ⟨scope, hlookup, htoken⟩ := h.attached l hl hs
  obtain ⟨_, k, _, hscope⟩ := h.scope l.entity scope (mem_of_lookup hlookup)
  rw [htoken, hscope, List.append_assoc]
  exact List.prefix_append s.run _

theorem isStopped_halt (h : s.Sound) {l : Leaf} (hl : l ∈ s.leaves) :
    s.halt.isStopped l.token = true := by
  cases hs : s.isStopped l.token with
  | true =>
    rw [halt, isStopped_stop, Bool.or_eq_true]
    exact .inr hs
  | false =>
    rw [halt, isStopped_stop, Bool.or_eq_true, List.isPrefixOf_iff_prefix]
    exact .inl (h.run_prefix hl hs)

theorem halt (h : s.Sound) : s.halt.Sound where
  running := by
    have hr : s.halt.isStopped s.run = true :=
      isStopped_iff.2 ⟨s.run, List.mem_cons_self, List.prefix_refl s.run⟩
    show false = !s.halt.isStopped s.run
    rw [hr]
    rfl
  run_issued := h.run_issued
  scope := h.scope
  scope_inj := h.scope_inj
  stopped_issued := by
    obtain ⟨r, hr, hrun⟩ := h.run_issued
    intro u hu
    rcases List.mem_cons.1 hu with rfl | hu
    · rw [hrun]
      exact hr
    · exact h.stopped_issued u hu
  leaf := h.leaf
  leaves_apart := h.leaves_apart
  attached := by
    intro l hl hs
    rw [h.isStopped_halt hl] at hs
    cases hs

-- No task of the entity may hang from the scope that is given up.
theorem openScope (h : s.Sound) {id : EntityId} (hid : id < s.size)
    (hl : ∀ l ∈ s.leaves, s.isStopped l.token = false → l.entity ≠ id) : (s.openScope id).Sound where
  running := h.running
  run_issued := by
    obtain ⟨r, hr, hrun⟩ := h.run_issued
    exact ⟨r, Nat.lt_succ_of_lt hr, hrun⟩
  scope := by
    intro id' scope hp
    rcases List.mem_cons.1 hp with hp | hp
    · cases hp
      exact ⟨hid, s.nextSerial, Nat.lt_succ_self s.nextSerial, rfl⟩
    · obtain ⟨hlt, k, hk, hscope⟩ := h.scope id' scope (List.mem_filter.1 hp).1
      exact ⟨hlt, k, Nat.lt_succ_of_lt hk, hscope⟩
  scope_inj := by
    have hnew : ∀ id', (id', s.run ++ [s.nextSerial]) ∉ s.scopes := by
      intro id' hm
      obtain ⟨_, k, hk, hscope⟩ := h.scope id' _ hm
      have he : s.nextSerial = k := by simpa using hscope
      omega
    intro id₁ id₂ scope h₁ h₂
    rcases List.mem_cons.1 h₁ with h₁ | h₁ <;> rcases List.mem_cons.1 h₂ with h₂ | h₂
    · cases h₁
      cases h₂
      rfl
    · cases h₁
      exact absurd (List.mem_filter.1 h₂).1 (hnew id₂)
    · cases h₂
      exact absurd (List.mem_filter.1 h₁).1 (hnew id₁)
    · exact h.scope_inj id₁ id₂ scope (List.mem_filter.1 h₁).1 (List.mem_filter.1 h₂).1
  stopped_issued := fun t ht =>
    (h.stopped_issued t ht).mono (Nat.le_succ s.nextSerial) (Nat.le_refl s.nextTask)
  leaf := h.leaf
  leaves_apart := h.leaves_apart
  attached := by
    intro l hm hs
    obtain ⟨scope, hlookup, htoken⟩ := h.attached l hm hs
    exact ⟨scope, (lookup_openScope_of_ne s (hl l hm hs)).trans hlookup, htoken⟩

theorem stopScope (h : s.Sound) {id : EntityId} {scope : Token}
    (ho : s.scopes.lookup id = some scope) : (s.stop scope).Sound := by
  obtain ⟨r, k, rfl, hrun, hk⟩ := h.scope_shape ho
  refine h.stop hk fun hp => ?_
  have hlen := hp.length_le
  simp [hrun] at hlen

theorem stopEntity (h : s.Sound) {id : EntityId} {old : Token} (ho : s.scopes.lookup id = some old) :
    (s.stopEntity id).Sound := by
  rw [stopEntity_eq ho]
  refine (h.stopScope ho).openScope (h.scope id old (mem_of_lookup ho)).1 ?_
  -- What hangs from the old scope has just been stopped.
  intro l hl hs hid
  obtain ⟨hp, hs'⟩ := isStopped_stop_eq_false.1 hs
  obtain ⟨scope, hlookup, htoken⟩ := h.attached l hl hs'
  rw [hid, ho] at hlookup
  cases hlookup
  exact hp (htoken ▸ List.prefix_append _ _)

theorem spawn (h : s.Sound) (id : EntityId) : (s.spawn id).Sound := by
  unfold ScopeTree.spawn
  split
  · exact h
  next scope hscope =>
    split
    · exact h
    next ho =>
      obtain ⟨r, k, rfl, -⟩ := h.scope_shape hscope
      exact {
        running := h.running
        run_issued := h.run_issued
        scope := h.scope
        scope_inj := h.scope_inj
        stopped_issued := fun t ht =>
          (h.stopped_issued t ht).mono (Nat.le_refl s.nextSerial) (Nat.le_succ s.nextTask)
        leaf := by
          intro l hl
          rcases List.mem_append.1 hl with hl | hl
          · exact ⟨Nat.lt_succ_of_lt (h.leaf l hl).1, (h.leaf l hl).2⟩
          · cases List.mem_singleton.1 hl
            exact ⟨Nat.lt_succ_self s.nextTask, r, k, rfl⟩
        leaves_apart := by
          refine List.pairwise_append.2 ⟨h.leaves_apart, List.pairwise_singleton _ _, ?_⟩
          intro l hl l' hl'
          cases List.mem_singleton.1 hl'
          exact (h.leaf l hl).1
        attached := by
          intro l hl hs
          rcases List.mem_append.1 hl with hl | hl
          · exact h.attached l hl hs
          · cases List.mem_singleton.1 hl
            exact ⟨_, hscope, rfl⟩ }

theorem spawns (h : s.Sound) (ids : List EntityId) : (ids.foldl ScopeTree.spawn s).Sound := by
  induction ids generalizing s with
  | nil => exact h
  | cons id rest ih => exact ih (h.spawn id)

theorem remove (h : s.Sound) (id : TaskId) : (s.remove id).Sound where
  running := h.running
  run_issued := h.run_issued
  scope := h.scope
  scope_inj := h.scope_inj
  stopped_issued := h.stopped_issued
  leaf := fun l hl => h.leaf l (List.mem_filter.1 hl).1
  leaves_apart := h.leaves_apart.filter _
  attached := fun l hl => h.attached l (List.mem_filter.1 hl).1

theorem load (h : s.Sound) (size : Nat) : (s.load size).Sound where
  running := h.halt.running
  run_issued := h.run_issued
  scope := nofun
  scope_inj := nofun
  stopped_issued := h.halt.stopped_issued
  leaf := h.leaf
  leaves_apart := h.leaves_apart
  attached := by
    intro l hl hs
    have hstopped : s.halt.isStopped l.token = false := hs
    rw [h.isStopped_halt hl] at hstopped
    cases hstopped

theorem restart (h : s.Sound) : s.restart.Sound where
  running := by
    show true = !s.halt.isStopped [s.halt.nextSerial]
    rw [h.halt.isStopped_newRun]
    rfl
  run_issued := ⟨s.nextSerial, Nat.lt_succ_self s.nextSerial, rfl⟩
  scope := nofun
  scope_inj := nofun
  stopped_issued := fun t ht =>
    (h.halt.stopped_issued t ht).mono (Nat.le_succ s.nextSerial) (Nat.le_refl s.nextTask)
  leaf := h.leaf
  leaves_apart := h.leaves_apart
  attached := by
    intro l hl hs
    have hstopped : s.halt.isStopped l.token = false := hs
    rw [h.isStopped_halt hl] at hstopped
    cases hstopped

theorem stopLeaf (h : s.Sound) {l : Leaf} (hl : l ∈ s.leaves) : (s.stop l.token).Sound := by
  obtain ⟨r', _, hrun⟩ := h.run_issued
  obtain ⟨hid, r, k, htoken⟩ := h.leaf l hl
  rw [htoken]
  refine h.stop hid fun hp => ?_
  have hlen := hp.length_le
  simp [hrun] at hlen

theorem stopLeaves (h : s.Sound) {ls : List Leaf} (hl : ∀ l ∈ ls, l ∈ s.leaves) :
    (ls.foldl (fun s l => s.stop l.token) s).Sound := by
  induction ls generalizing s with
  | nil => exact h
  | cons l ls ih =>
    exact ih (h.stopLeaf (hl l List.mem_cons_self)) fun l' hl' => hl l' (List.mem_cons_of_mem l hl')

theorem stopOthers (h : s.Sound) (id : EntityId) (except : TaskId) :
    (s.stopOthers id except).Sound :=
  h.stopLeaves fun _ hl => (List.mem_filter.1 hl).1

/-! ### Whom an operation stops -/

theorem eq_of_id_eq (h : s.Sound) {l l' : Leaf} (hl : l ∈ s.leaves) (hl' : l' ∈ s.leaves)
    (he : l.id = l'.id) : l = l' :=
  eq_of_pairwise_lt h.leaves_apart hl hl' he

theorem isStopped_stopEntity (h : s.Sound) {id : EntityId} {old : Token}
    (ho : s.scopes.lookup id = some old) {l : Leaf} (hl : l ∈ s.leaves)
    (hs : s.isStopped l.token = false) :
    (s.stopEntity id).isStopped l.token = true ↔ l.entity = id := by
  obtain ⟨scope, hlookup, htoken⟩ := h.attached l hl hs
  have he : (s.stopEntity id).isStopped l.token = old.isPrefixOf l.token := by
    rw [stopEntity_eq ho]
    show (old.isPrefixOf l.token || s.isStopped l.token) = _
    rw [hs, Bool.or_false]
  rw [he, List.isPrefixOf_iff_prefix, htoken]
  constructor
  · intro hp
    obtain ⟨r, k, rfl, -⟩ := h.scope_shape ho
    obtain ⟨r', k', rfl, -⟩ := h.scope_shape hlookup
    -- Both scopes are places of the same depth, so one below the other is the same place.
    have hsame : [r, k] = [r', k'] := by simpa using hp
    rw [← hsame] at hlookup
    exact h.scope_inj l.entity id [r, k] (mem_of_lookup hlookup) (mem_of_lookup ho)
  · intro hid
    rw [hid, ho] at hlookup
    cases hlookup
    exact List.prefix_append _ _

theorem isStopped_stopLeaves (s : ScopeTree) (ls : List Leaf) (t : Token) :
    (ls.foldl (fun s l => s.stop l.token) s).isStopped t =
      (ls.any (·.token.isPrefixOf t) || s.isStopped t) := by
  induction ls generalizing s with
  | nil => rfl
  | cons l ls ih =>
    rw [List.foldl_cons, ih, isStopped_stop, List.any_cons]
    cases l.token.isPrefixOf t <;> simp

theorem isStopped_stopOthers (h : s.Sound) (id : EntityId) (except : TaskId) {l : Leaf}
    (hl : l ∈ s.leaves) (hs : s.isStopped l.token = false) :
    (s.stopOthers id except).isStopped l.token = true ↔ l.entity = id ∧ l.id ≠ except := by
  rw [ScopeTree.stopOthers, isStopped_stopLeaves, hs, Bool.or_false, List.any_eq_true]
  constructor
  · rintro ⟨l', hl', hp⟩
    obtain ⟨hmem, hcond⟩ := List.mem_filter.1 hl'
    obtain ⟨_, r, k, htoken⟩ := h.leaf l hl
    obtain ⟨_, r', k', htoken'⟩ := h.leaf l' hmem
    rw [List.isPrefixOf_iff_prefix, htoken, htoken'] at hp
    have hid : l'.id = l.id := by
      have hsame : [r', k', l'.id] = [r, k, l.id] := hp.eq_of_length rfl
      simpa using congrArg List.getLast? hsame
    rw [← h.eq_of_id_eq hmem hl hid]
    simpa using hcond
  · intro hcond
    refine ⟨l, List.mem_filter.2 ⟨hl, by simpa using hcond⟩, ?_⟩
    exact List.isPrefixOf_iff_prefix.2 (List.prefix_refl l.token)

end Sound

/-! ### The task that is running -/

theorem Sound.running_of_live {l : Leaf} (h : s.Sound) (hl : s.Live l) : s.running = true := by
  rw [h.running]
  cases hr : s.isStopped s.run with
  | false => rfl
  | true =>
    have hstopped := isStopped_of_prefix (h.run_prefix hl.1 hl.2) hr
    rw [hl.2] at hstopped
    cases hstopped

namespace Live

variable {l : Leaf}

theorem spawn (h : s.Live l) (id : EntityId) : (s.spawn id).Live l := by
  unfold ScopeTree.spawn
  split
  · exact h
  · split
    · exact h
    · exact ⟨List.mem_append_left _ h.1, h.2⟩

theorem spawns (h : s.Live l) (ids : List EntityId) : (ids.foldl ScopeTree.spawn s).Live l := by
  induction ids generalizing s with
  | nil => exact h
  | cons id rest ih => exact ih (h.spawn id)

theorem stopOthers (h : s.Live l) (hs : s.Sound) (id : EntityId) : (s.stopOthers id l.id).Live l := by
  have hleaves : ∀ (ls : List Leaf) (s : ScopeTree),
      (ls.foldl (fun s l => s.stop l.token) s).leaves = s.leaves := by
    intro ls
    induction ls with
    | nil => exact fun _ => rfl
    | cons l rest ih => exact fun s => ih (s.stop l.token)
  refine ⟨?_, Bool.eq_false_iff.2 fun hc => ?_⟩
  · rw [ScopeTree.stopOthers, hleaves]
    exact h.1
  · exact ((hs.isStopped_stopOthers id l.id h.1 h.2).1 hc).2 rfl

end Live

/-! ### Scripts of every entity can start -/

theorem isOpen_openScope (h : s.Sound) (hr : s.running = true) {id other : EntityId}
    (ho : s.IsOpen other ∨ other = id) : (s.openScope id).IsOpen other := by
  by_cases he : other = id
  · subst he
    have hrun : s.isStopped s.run = false := by
      have := h.running
      rw [hr] at this
      simpa using this
    exact ⟨_, lookup_openScope_self s other, h.isStopped_newScope hrun⟩
  · obtain ⟨scope, hlookup, hs⟩ := ho.resolve_right he
    exact ⟨scope, (lookup_openScope_of_ne s he).trans hlookup, hs⟩

theorem IsOpen.stop {id : EntityId} {t : Token} (h : s.IsOpen id)
    (ht : ∀ scope, s.scopes.lookup id = some scope → ¬ t <+: scope) : (s.stop t).IsOpen id := by
  obtain ⟨scope, hlookup, hs⟩ := h
  exact ⟨scope, hlookup, isStopped_stop_eq_false.2 ⟨ht scope hlookup, hs⟩⟩

namespace Covered

theorem stopEntity (hc : s.Covered) (h : s.Sound) {id : EntityId} {old : Token}
    (ho : s.scopes.lookup id = some old) : (s.stopEntity id).Covered := by
  rw [stopEntity_eq ho]
  intro hr other hother
  refine isOpen_openScope (h.stopScope ho) hr ?_
  by_cases hid : other = id
  · exact .inr hid
  · refine .inl ((hc hr other hother).stop fun scope hlookup hp => hid ?_)
    obtain ⟨r, k, rfl, -⟩ := h.scope_shape ho
    obtain ⟨r', k', rfl, -⟩ := h.scope_shape hlookup
    have hsame : [r, k] = [r', k'] := hp.eq_of_length rfl
    rw [← hsame] at hlookup
    exact h.scope_inj other id [r, k] (mem_of_lookup hlookup) (mem_of_lookup ho)

theorem stopLeaves (hc : s.Covered) (h : s.Sound) {ls : List Leaf} (hl : ∀ l ∈ ls, l ∈ s.leaves) :
    (ls.foldl (fun s l => s.stop l.token) s).Covered := by
  induction ls generalizing s with
  | nil => exact hc
  | cons l ls ih =>
    have hm := hl l List.mem_cons_self
    refine ih (fun hr id hid => (hc hr id hid).stop fun scope hlookup hp => ?_) (h.stopLeaf hm)
      fun l' hl' => hl l' (List.mem_cons_of_mem l hl')
    -- A task is deeper in the tree than any scope.
    obtain ⟨_, r, k, htoken⟩ := h.leaf l hm
    obtain ⟨r', k', rfl, -⟩ := h.scope_shape hlookup
    have hlen := hp.length_le
    simp [htoken] at hlen

theorem stopOthers (hc : s.Covered) (h : s.Sound) (id : EntityId) (except : TaskId) :
    (s.stopOthers id except).Covered :=
  hc.stopLeaves h fun _ hl => (List.mem_filter.1 hl).1

theorem spawn (hc : s.Covered) (id : EntityId) : (s.spawn id).Covered := by
  unfold ScopeTree.spawn
  split
  · exact hc
  · split <;> exact hc

theorem spawns (hc : s.Covered) (ids : List EntityId) : (ids.foldl ScopeTree.spawn s).Covered := by
  induction ids generalizing s with
  | nil => exact hc
  | cons id rest ih => exact ih (hc.spawn id)

end Covered

theorem openScopes_shape (s : ScopeTree) (ids : List EntityId) :
    ∃ scopes serial, ids.foldl openScope s = { s with scopes := scopes, nextSerial := serial } := by
  induction ids generalizing s with
  | nil => exact ⟨s.scopes, s.nextSerial, rfl⟩
  | cons id ids ih => exact ih (s.openScope id)

/-- While all tasks there are have been stopped, scopes can be opened for any entities. -/
theorem Sound.openScopes (h : s.Sound) (hr : s.running = true)
    (hl : ∀ l ∈ s.leaves, s.isStopped l.token = true) {ids : List EntityId}
    (hids : ∀ id ∈ ids, id < s.size) :
    (ids.foldl ScopeTree.openScope s).Sound ∧
      ∀ id, s.IsOpen id ∨ id ∈ ids → (ids.foldl ScopeTree.openScope s).IsOpen id := by
  induction ids generalizing s with
  | nil => exact ⟨h, fun id ho => ho.resolve_right List.not_mem_nil⟩
  | cons id ids ih =>
    have hsound : (s.openScope id).Sound := by
      refine h.openScope (hids id List.mem_cons_self) fun l hm hs => ?_
      rw [hl l hm] at hs
      cases hs
    obtain ⟨hs, hopen⟩ := ih hsound hr hl fun i hi => hids i (List.mem_cons_of_mem id hi)
    refine ⟨hs, fun other ho => hopen other ?_⟩
    rcases ho with ho | ho
    · exact .inl (isOpen_openScope h hr (.inl ho))
    · rcases List.mem_cons.1 ho with rfl | ho
      · exact .inl (isOpen_openScope h hr (.inr rfl))
      · exact .inr ho

theorem Sound.start (h : s.Sound) : s.start.Sound ∧ s.start.Covered := by
  have hstopped : ∀ l ∈ s.restart.leaves, s.restart.isStopped l.token = true :=
    fun l hl => h.isStopped_halt hl
  have hids : ∀ id ∈ List.range s.size, id < s.restart.size := fun id => List.mem_range.1
  obtain ⟨hs, hopen⟩ := h.restart.openScopes rfl hstopped hids
  refine ⟨hs, fun _ id hid => hopen id (.inr (List.mem_range.2 ?_))⟩
  obtain ⟨scopes, serial, he⟩ := openScopes_shape s.restart (List.range s.size)
  rw [ScopeTree.start, he] at hid
  exact hid

theorem Sound.isStopped_start (h : s.Sound) {l : Leaf} (hl : l ∈ s.leaves) :
    s.start.isStopped l.token = true := by
  obtain ⟨scopes, serial, he⟩ := openScopes_shape s.restart (List.range s.size)
  rw [ScopeTree.start, he]
  exact h.isStopped_halt hl

/-! ### As time goes by -/

/-- Nothing that was stopped runs again, and the number of a task is not given out twice. -/
structure Later (s s' : ScopeTree) : Prop where
  stopped : ∀ t, s.isStopped t = true → s'.isStopped t = true
  nextTask : s.nextTask ≤ s'.nextTask
  leaves : ∀ l ∈ s'.leaves, l ∈ s.leaves ∨ s.nextTask ≤ l.id

namespace Later

variable {s' s'' : ScopeTree}

theorem refl (s : ScopeTree) : s.Later s :=
  ⟨fun _ h => h, Nat.le_refl s.nextTask, fun _ h => .inl h⟩

theorem trans (h : s.Later s') (h' : s'.Later s'') : s.Later s'' where
  stopped t ht := h'.stopped t (h.stopped t ht)
  nextTask := Nat.le_trans h.nextTask h'.nextTask
  leaves l hl := by
    rcases h'.leaves l hl with hl | hl
    · exact h.leaves l hl
    · exact .inr (Nat.le_trans h.nextTask hl)

theorem stop (s : ScopeTree) (t : Token) : s.Later (s.stop t) where
  stopped u hu := by
    rw [isStopped_stop, Bool.or_eq_true]
    exact .inr hu
  nextTask := Nat.le_refl s.nextTask
  leaves _ hl := .inl hl

theorem halt (s : ScopeTree) : s.Later s.halt :=
  ⟨(stop s s.run).stopped, Nat.le_refl s.nextTask, fun _ hl => .inl hl⟩

theorem stopEntity (s : ScopeTree) (id : EntityId) : s.Later (s.stopEntity id) := by
  unfold ScopeTree.stopEntity
  split
  next old _ => exact ⟨(stop s old).stopped, Nat.le_refl s.nextTask, fun _ hl => .inl hl⟩
  · exact ⟨fun _ h => h, Nat.le_refl s.nextTask, fun _ h => .inl h⟩

theorem stopOthers (s : ScopeTree) (id : EntityId) (except : TaskId) :
    s.Later (s.stopOthers id except) := by
  unfold ScopeTree.stopOthers
  generalize s.leaves.filter _ = ls
  induction ls generalizing s with
  | nil => exact .refl s
  | cons l rest ih => exact (stop s l.token).trans (ih (s.stop l.token))

theorem spawn (s : ScopeTree) (id : EntityId) : s.Later (s.spawn id) := by
  unfold ScopeTree.spawn
  split
  · exact .refl s
  · split
    · exact .refl s
    · refine ⟨fun _ h => h, Nat.le_succ s.nextTask, fun l hl => ?_⟩
      rcases List.mem_append.1 hl with hl | hl
      · exact .inl hl
      · cases List.mem_singleton.1 hl
        exact .inr (Nat.le_refl s.nextTask)

theorem spawns (s : ScopeTree) (ids : List EntityId) : s.Later (ids.foldl ScopeTree.spawn s) := by
  induction ids generalizing s with
  | nil => exact .refl s
  | cons id rest ih => exact (spawn s id).trans (ih (s.spawn id))

theorem remove (s : ScopeTree) (id : TaskId) : s.Later (s.remove id) :=
  ⟨fun _ h => h, Nat.le_refl s.nextTask, fun _ hl => .inl (List.mem_filter.1 hl).1⟩

theorem start (s : ScopeTree) : s.Later s.start := by
  obtain ⟨scopes, serial, he⟩ := openScopes_shape s.restart (List.range s.size)
  rw [ScopeTree.start, he]
  exact ⟨(halt s).stopped, Nat.le_refl s.nextTask, fun _ hl => .inl hl⟩

end Later

end ScopeTree

end SpriteStage
