import SpriteStage.Proofs.Machine.Edits

/-!
Costumes. However often and by whatever numbers, names and keywords scripts change their costumes
and the backdrop, an entity with costumes always wears one of them.
-/

namespace SpriteStage

theorem Entity.dressed_ofSpec (spec : EntitySpec) : (Entity.ofSpec spec).Dressed where
  worn := currentCostume_ofSpec_lt
  bare h := by
    have hspec : spec.costumes = [] := h
    simp [ofSpec, hspec]

namespace Machine

def Dressed (m : Machine) : Prop :=
  ∀ e ∈ m.world.entities, e.Dressed

namespace Dressed

variable {m n : Machine}

theorem edits (h : m.Dressed) (he : m.Edits n) : n.Dressed := by
  obtain ⟨w, hw, hentities, -⟩ := he
  unfold Dressed
  rw [hentities]
  exact hw.dressed h

theorem move (h : m.Dressed) (move : Move) : (m.move move).Dressed := by
  cases hload : move.isLoad with
  | false => exact h.edits (.moved (moved_move m move) hload)
  | true =>
    obtain ⟨specs, program, rfl⟩ := exists_load_of_isLoad hload
    intro e he
    obtain ⟨spec, _, rfl⟩ := List.mem_map.1 he
    exact Entity.dressed_ofSpec spec

end Dressed

theorem Reachable.dressed {m : Machine} (h : m.Reachable) : m.Dressed :=
  h.invariant (fun _ => nofun) fun _ move hn => hn.move move

theorem Visited.dressed {n : Machine} (h : n.Visited) : n.Dressed := by
  rcases h with h | ⟨m, move, s, hm, hk⟩
  · exact h.dressed
  · obtain ⟨id, t, ks, _, _, _, hp⟩ := turn_of_mem_moveTrace hk
    have hdequeued : (m.dequeue id).Dressed := hm.dressed
    exact hdequeued.edits (.turn hp)

/-! ### Every world -/

theorem worn_costume_exists {n : Machine} (h : n.Visited) :
    ∀ e ∈ n.world.entities,
      (e.costumes ≠ [] → e.currentCostume < e.costumes.length) ∧
      (e.costumes = [] → e.currentCostume = 0) :=
  fun e he => ⟨(h.dressed e he).worn, (h.dressed e he).bare⟩

namespace Sample

def wardrobe : List Costume :=
  ["day", "night", "noon"].map fun name => ⟨"", name, "", 10, 10, (0, 0)⟩

-- A cat that is described with a costume it does not have, and another without costumes.
def dressing : List Move :=
  [.command (.loadProgram [{ cat with costumes := wardrobe, currentCostume := 7 }, cat]
    ⟨[{ EntityProgram.empty with
        onStart := some ⟨"a", [.act .nextCostume, .act .yield,
          .act (.switchCostume (.literal (.text "Previous Costume")))]⟩ }]⟩),
    .command .start, .poll 1, .resume, .poll 1]

end Sample

theorem worn_costume_exists_sample :
    let run := fun moves => ((Machine.new .standard).after moves).world.entities
    (run (Sample.dressing.take 1)).map (·.currentCostume) = [2, 0] ∧
      (run (Sample.dressing.take 3)).map (·.currentCostume) = [0, 0] ∧
      (run Sample.dressing).map (·.currentCostume) = [2, 0] ∧
      ∀ e ∈ run Sample.dressing, (e.costumes ≠ [] → e.currentCostume < e.costumes.length) ∧
        (e.costumes = [] → e.currentCostume = 0) :=
  ⟨by decide +kernel, by decide +kernel, by decide +kernel,
    worn_costume_exists (.inl ⟨.standard, Sample.dressing, rfl⟩)⟩

end Machine

end SpriteStage
