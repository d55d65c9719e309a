import SpriteStage.Proofs.Compile.Grammar

/-!
Where compiled scripts let the others run: at the end of every body, at any depth, and nowhere else.
Chains that were cut and branches that are missing make no difference.
-/

namespace SpriteStage.Compile

/-- The body yields as its last statement and at no other place. -/
def YieldsLast (body : List Stmt) : Prop :=
  ∃ init, body = init ++ [.act .yield] ∧ .act .yield ∉ init

theorem yield_notMem_synced {s : Stmt} (h : s.isYield = false) : .act .yield ∉ synced s := by
  intro hmem
  rcases eq_of_mem_synced hmem with hs | hs
  · cases hs
  · rw [← hs] at h
    cases h

theorem Compiled.yield_notMem {l : List Stmt} (h : Compiled l) : .act .yield ∉ l := by
  induction h with
  | nil => exact List.not_mem_nil
  | append _ _ ihl ihm => exact fun hmem => (List.mem_append.1 hmem).elim ihl ihm
  | action a ha =>
    refine yield_notMem_synced ?_
    cases a with
    | yield => cases ha
    | _ => rfl
  | waitUntil condition =>
    intro hmem
    cases List.mem_singleton.1 hmem
  | repeatTimes | repeatUntil | forever | branch => exact yield_notMem_synced rfl

theorem yield_notMem_resync (condition : Expr) : .act .yield ∉ resync condition := by
  unfold resync
  split <;> simp

theorem yieldsLast_append_closing {l : List Stmt} (h : .act .yield ∉ l) (s : Stmt) :
    YieldsLast (l ++ closing (some s)) := by
  cases s with
  | repeatUntil condition body =>
    refine ⟨l ++ resync condition, (List.append_assoc _ _ _).symm, fun hmem => ?_⟩
    exact (List.mem_append.1 hmem).elim h (yield_notMem_resync condition)
  | _ => exact ⟨l, rfl, h⟩

/-- However the blocks hang together, the bodies of all loops and both branches of all forks of a
script yield at their end, and there is no other place where it yields. -/
theorem scripts_yield_last {name : String} {t : BlockTree} {script : Script}
    (h : script ∈ (entity name t).1.scripts) :
    .act .yield ∉ script.body ∧
      ∀ s body, Nested script.body (some s) body → YieldsLast body := by
  have hscript := compiled_script h
  refine ⟨hscript.yield_notMem, fun s body hbody => ?_⟩
  obtain ⟨inner, hinner, rfl⟩ := hscript.nested hbody
  exact yieldsLast_append_closing hinner.yield_notMem s

theorem scripts_yield_last_sample :
    ⟨"hat", [.act .syncMouse, Sample.loop]⟩ ∈ (entity "Cat" Sample.tangled).1.scripts ∧
      YieldsLast [Sample.fork, .act .syncMouse, .act .yield] ∧ YieldsLast [.act .yield] := by
  have hscript := Sample.mem_scripts_tangled
  have hloop := Sample.nested_loop
  have hfork : Nested [.act .syncMouse, Sample.loop] (some Sample.fork) [.act .yield] :=
    .body hloop List.mem_cons_self List.mem_cons_self
  have hyield := (scripts_yield_last hscript).2
  exact ⟨hscript, hyield _ _ hloop, hyield _ _ hfork⟩

end SpriteStage.Compile
