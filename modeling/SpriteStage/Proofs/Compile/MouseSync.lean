import SpriteStage.Proofs.Compile.Grammar

/-!
Where compiled scripts ask for the mouse: before every statement that needs it, at the end of a loop
whose condition does, and nowhere else. A wait asks by itself, if its condition needs it.
-/

namespace SpriteStage

/-- Does the statement need the mouse before it starts? A wait looks for it by itself. -/
def Stmt.needsMouse : Stmt → Bool
  | .waitUntil .. => false
  | s => s.readsMouse

namespace Compile

/-! ### Asking and needing -/

/-- Every statement that needs the mouse comes right after one that asks for it. -/
def Provided (l : List Stmt) : Prop :=
  ∀ i s, l[i]? = some s → s.needsMouse = true → ∃ j, i = j + 1 ∧ l[j]? = some (.act .syncMouse)

/-- Every statement that asks for the mouse comes right before one that needs it. -/
def Wanted (l : List Stmt) : Prop :=
  ∀ i, l[i]? = some (.act .syncMouse) → ∃ s, l[i + 1]? = some s ∧ s.needsMouse = true

theorem Provided.append {l m : List Stmt} (hl : Provided l) (hm : Provided m) :
    Provided (l ++ m) := by
  intro i s hs hneeds
  by_cases hi : i < l.length
  · rw [List.getElem?_append_left hi] at hs
    obtain ⟨j, hj, hsync⟩ := hl i s hs hneeds
    refine ⟨j, hj, ?_⟩
    rwa [List.getElem?_append_left (by omega)]
  · rw [List.getElem?_append_right (by omega)] at hs
    obtain ⟨j, hj, hsync⟩ := hm (i - l.length) s hs hneeds
    refine ⟨l.length + j, by omega, ?_⟩
    rwa [List.getElem?_append_right (by omega), Nat.add_sub_cancel_left]

theorem Wanted.append {l m : List Stmt} (hl : Wanted l) (hm : Wanted m) : Wanted (l ++ m) := by
  intro i hi
  by_cases hlt : i < l.length
  · rw [List.getElem?_append_left hlt] at hi
    obtain ⟨s, hs, hneeds⟩ := hl i hi
    have hnext : i + 1 < l.length := (List.getElem?_eq_some_iff.1 hs).1
    exact ⟨s, by rwa [List.getElem?_append_left hnext], hneeds⟩
  · rw [List.getElem?_append_right (by omega)] at hi
    obtain ⟨s, hs, hneeds⟩ := hm (i - l.length) hi
    have hnext : i + 1 - l.length = i - l.length + 1 := by omega
    exact ⟨s, by rwa [List.getElem?_append_right (by omega), hnext], hneeds⟩

theorem provided_of_needless {l : List Stmt} (h : ∀ s ∈ l, s.needsMouse = false) : Provided l := by
  intro i s hs hneeds
  rw [h s (List.mem_of_getElem? hs)] at hneeds
  cases hneeds

theorem wanted_of_notMem {l : List Stmt} (h : .act .syncMouse ∉ l) : Wanted l :=
  fun _ hi => absurd (List.mem_of_getElem? hi) h

theorem provided_synced {s : Stmt} (hneeds : s.needsMouse = s.readsMouse) :
    Provided (synced s) := by
  unfold synced
  split
  · intro i s' hi hneeds'
    cases i with
    | zero =>
      cases hi
      cases hneeds'
    | succ i =>
      have hlt : i + 1 < 2 := (List.getElem?_eq_some_iff.1 hi).1
      obtain rfl : i = 0 := by omega
      exact ⟨0, rfl, rfl⟩
  · next hread =>
    refine provided_of_needless fun s' hs' => ?_
    cases List.mem_singleton.1 hs'
    rw [hneeds]
    exact eq_false_of_ne_true hread

theorem wanted_synced {s : Stmt} (hs : s ≠ .act .syncMouse) (hneeds : s.needsMouse = s.readsMouse) :
    Wanted (synced s) := by
  have hnot : .act .syncMouse ∉ [s] := fun hmem => hs (List.mem_singleton.1 hmem).symm
  unfold synced
  split
  · next hread =>
    intro i hi
    cases i with
    | zero => exact ⟨s, rfl, hneeds.trans hread⟩
    | succ i =>
      rw [List.getElem?_cons_succ] at hi
      exact absurd (List.mem_of_getElem? hi) hnot
  · exact wanted_of_notMem hnot

theorem Compiled.provided {l : List Stmt} (h : Compiled l) : Provided l := by
  induction h with
  | nil => exact nofun
  | append _ _ ihl ihm => exact ihl.append ihm
  | waitUntil condition =>
    refine provided_of_needless fun s hs => ?_
    cases List.mem_singleton.1 hs
    rfl
  | action | repeatTimes | repeatUntil | forever | branch => exact provided_synced rfl

theorem Compiled.wanted {l : List Stmt} (h : Compiled l) : Wanted l := by
  induction h with
  | nil => exact nofun
  | append _ _ ihl ihm => exact ihl.append ihm
  | action a ha =>
    refine wanted_synced (fun hs => ?_) rfl
    cases hs
    cases ha
  | waitUntil condition => exact wanted_of_notMem (by simp)
  | repeatTimes | repeatUntil | forever | branch => exact wanted_synced nofun rfl

theorem Compiled.wait {l : List Stmt} (h : Compiled l) {condition : Expr} {sync : Bool}
    (hs : .waitUntil condition sync ∈ l) : sync = condition.readsMouse := by
  induction h with
  | nil => cases hs
  | append _ _ ihl ihm => exact (List.mem_append.1 hs).elim ihl ihm
  | waitUntil condition =>
    cases List.mem_singleton.1 hs
    rfl
  | action | repeatTimes | repeatUntil | forever | branch =>
    rcases eq_of_mem_synced hs with hs | hs <;> cases hs

/-! ### The ends of bodies -/

theorem resync_eq {condition : Expr} (h : condition.readsMouse = true) :
    resync condition = [.act .syncMouse] :=
  if_pos h

/-- Only a loop whose condition reads the mouse asks for it at the end. -/
theorem sync_closing {owner : Option Stmt} {i : Nat}
    (h : (closing owner)[i]? = some (.act .syncMouse)) :
    i = 0 ∧ closing owner = [.act .syncMouse, .act .yield] ∧
      ∃ condition body, owner = some (.repeatUntil condition body) ∧
        condition.readsMouse = true := by
  match owner, h with
  | some (.repeatUntil condition body), h =>
    by_cases hread : condition.readsMouse = true
    · have hclosing : closing (some (.repeatUntil condition body)) =
          [.act .syncMouse, .act .yield] := by
        rw [closing, resync_eq hread]
        rfl
      rw [hclosing] at h
      refine ⟨?_, hclosing, condition, body, rfl, hread⟩
      cases i with
      | zero => rfl
      | succ i => cases List.mem_singleton.1 (List.mem_of_getElem? h)
    · rw [closing, resync, if_neg hread] at h
      cases List.mem_singleton.1 (List.mem_of_getElem? h)
  | some (.act _), h | some (.waitUntil ..), h | some (.repeatTimes ..), h | some (.forever _), h
  | some (.branch ..), h => cases List.mem_singleton.1 (List.mem_of_getElem? h)

/-! ### The theorem -/

/-- A list of statements, with the statement whose body it is, in which the mouse is asked for where
it is needed and nowhere else. -/
structure MouseSynced (owner : Option Stmt) (l : List Stmt) : Prop where
  provided : Provided l
  wait : ∀ condition sync, .waitUntil condition sync ∈ l → sync = condition.readsMouse
  loop : ∀ condition body, .repeatUntil condition body ∈ l → condition.readsMouse = true →
    ∃ init, body = init ++ [.act .syncMouse, .act .yield]
  sync : ∀ i, l[i]? = some (.act .syncMouse) →
    (∃ s, l[i + 1]? = some s ∧ s.needsMouse = true) ∨
      l[i + 1]? = some (.act .yield) ∧ l.length = i + 2 ∧
        ∃ condition, owner = some (.repeatUntil condition l) ∧ condition.readsMouse = true

theorem Compiled.mouseSynced {script l : List Stmt} {owner : Option Stmt}
    (hscript : Compiled script) (h : Nested script owner l) : MouseSynced owner l := by
  obtain ⟨inner, hinner, hl⟩ := hscript.nested h
  have hprovided : Provided (inner ++ closing owner) := by
    refine hinner.provided.append (provided_of_needless fun s hs => ?_)
    rcases mark_of_mem_closing hs with rfl | rfl <;> rfl
  refine ⟨hl ▸ hprovided, fun condition sync hs => ?_, fun condition body hs hread => ?_, ?_⟩
  · rw [hl] at hs
    rcases List.mem_append.1 hs with hs | hs
    · exact hinner.wait hs
    · rcases mark_of_mem_closing hs with hs | hs <;> cases hs
  · -- the loop's body is a list of the script too, and ends as such loops do
    obtain ⟨init, -, hbody⟩ := hscript.nested (.body h hs List.mem_cons_self)
    refine ⟨init, ?_⟩
    rw [hbody, closing, resync_eq hread]
    rfl
  · intro i hi
    by_cases hlt : i < inner.length
    · -- the one that needs the mouse is still in front of the closing statements
      rw [hl, List.getElem?_append_left hlt] at hi
      obtain ⟨s, hs, hneeds⟩ := hinner.wanted i hi
      have hnext : i + 1 < inner.length := (List.getElem?_eq_some_iff.1 hs).1
      exact .inl ⟨s, by rwa [hl, List.getElem?_append_left hnext], hneeds⟩
    · rw [hl, List.getElem?_append_right (by omega)] at hi
      obtain ⟨hzero, hclosing, condition, body, rfl, hread⟩ := sync_closing hi
      obtain rfl : i = inner.length := by omega
      obtain rfl : l = body := List.mem_singleton.1 h.mem_bodies
      refine .inr ⟨?_, ?_, condition, rfl, hread⟩
      · rw [hl, hclosing, List.getElem?_append_right (by omega), Nat.add_sub_cancel_left]
        rfl
      · rw [hl, hclosing, List.length_append]
        rfl

/-- In every list of statements of a script, however the blocks hang together, the mouse is asked
for where it is needed and nowhere else. -/
theorem scripts_ask_for_mouse {name : String} {t : BlockTree} {script : Script}
    (h : script ∈ (entity name t).1.scripts) {owner : Option Stmt} {l : List Stmt}
    (hl : Nested script.body owner l) : MouseSynced owner l :=
  (compiled_script h).mouseSynced hl

theorem scripts_ask_for_mouse_sample :
    ⟨"hat", [.act .syncMouse, Sample.loop]⟩ ∈ (entity "Cat" Sample.tangled).1.scripts ∧
      Nested [.act .syncMouse, Sample.loop] (some Sample.loop)
        [Sample.fork, .act .syncMouse, .act .yield] ∧
      MouseSynced none [.act .syncMouse, Sample.loop] ∧
      MouseSynced (some Sample.loop) [Sample.fork, .act .syncMouse, .act .yield] := by
  have hscript := Sample.mem_scripts_tangled
  have hloop := Sample.nested_loop
  exact ⟨hscript, hloop, scripts_ask_for_mouse hscript .script, scripts_ask_for_mouse hscript hloop⟩

end Compile

end SpriteStage
