import SpriteStage.Proofs.Machine.Edits
import SpriteStage.Proofs.World.Variables

/-!
Variables over a whole run. From one load to the next, whatever the host and the scripts do, no
entity gets or loses a variable of its own and no global one is gone. So an entity means the same
cell by a name at all times, and the laws of the store hold in each world.
-/

namespace SpriteStage.Machine

variable {m n : Machine}

theorem Edits.keepsCells (h : m.Edits n) : m.world.KeepsCells n.world := by
  obtain ⟨w, hw, hentities, hglobals⟩ := h
  exact hw.keepsCells.trans (.of_eq hentities hglobals)

theorem keepsCells_after {moves : List Move} (hload : ∀ move ∈ moves, move.isLoad = false) :
    m.world.KeepsCells (m.after moves).world := by
  refine after_invariant (P := fun n => m.world.KeepsCells n.world) ?_ (.refl m.world)
  intro n move hmove hn
  have hedits : n.Edits (n.move move) := .moved (moved_move n move) (hload move hmove)
  exact hn.trans hedits.keepsCells

/-- From `m` on, without another load, there comes a time when the machine is `n`: between two moves,
or as a statement is about to be executed. -/
def Meets (m n : Machine) : Prop :=
  ∃ moves, (∀ move ∈ moves, move.isLoad = false) ∧
    (n = m.after moves ∨ ∃ move s, ⟨n, s⟩ ∈ (m.after moves).moveTrace move)

theorem Meets.keepsCells (h : m.Meets n) : m.world.KeepsCells n.world := by
  obtain ⟨moves, hload, rfl | ⟨move, s, hk⟩⟩ := h
  · exact keepsCells_after hload
  · obtain ⟨id, t, ks, _, _, _, hp⟩ := turn_of_mem_moveTrace hk
    have hedits : ((m.after moves).dequeue id).Edits n := .turn hp
    exact (keepsCells_after hload).trans hedits.keepsCells

/-- In each world after a load, a write is read back, and is seen under no name but those that share
its variable; values, and how variables are shown, change separately. The variables of entities are
those of the load, global variables stay, and every name keeps its cell. -/
theorem variables_keep_cells (h : m.Meets n) :
    n.world.StoreLaws ∧
      (∀ id name, n.world.Owns id name ↔ m.world.Owns id name) ∧
      (∀ name, m.world.globals.contains name = true → n.world.globals.contains name = true) ∧
      (∀ id name, n.world.cell id name = m.world.cell id name) ∧
      ∀ id name, (m.world.variableOf? id name).isSome = true →
        (n.world.variableOf? id name).isSome = true :=
  ⟨n.world.storeLaws, h.keepsCells.owns, h.keepsCells.shared, h.keepsCells.cell,
    fun _ _ => h.keepsCells.exists_variable⟩

namespace Sample

/-- Sets the score and hides the lives, for whomever it runs. -/
def scoring (points : Float) : EntityProgram :=
  { EntityProgram.empty with
    onStart := some ⟨"a", [.act (.setVar "score" (.literal (.number points))), .act .yield,
      .act (.changeVar "lives" (.literal (.number 1))), .act (.hideVariable "lives")]⟩ }

def shown (x : Float) : Variable :=
  ⟨.number x, true, none⟩

/-- The cat has a score of its own, and the dog has none. The lives are those of the background. -/
def scores : Machine :=
  (Machine.new .standard).after [.command (.loadProgram
    [{ cat with kind := .background, vars := .ofList [("lives", shown 3)] },
      { cat with vars := .ofList [("score", shown 5)] }, cat]
    ⟨[.empty, scoring 7, scoring 8]⟩)]

def play : List Move :=
  [.command .start, .poll 1, .poll 2, .resume, .poll 1, .poll 2]

end Sample

theorem variables_keep_cells_scores :
    let n := Sample.scores.after Sample.play
    Sample.scores.Meets n ∧
      (n.world.variableValue 1 "score", n.world.variableValue 2 "score",
        n.world.variableValue 2 "lives") = (.number 7, .number 8, .number 5) ∧
      n.world.look 1 "lives" = (false, none) ∧
      n.world.StoreLaws ∧
      n.world.cell 1 "score" = .own 1 "score" ∧ n.world.cell 2 "score" = .shared "score" := by
  intro n
  have hmeets : Sample.scores.Meets n := ⟨Sample.play, by decide, .inl rfl⟩
  obtain ⟨hlaws, -, -, hcells, -⟩ := variables_keep_cells hmeets
  refine ⟨hmeets, by decide +kernel, by decide +kernel, hlaws, ?_, ?_⟩
  · rw [hcells]
    decide +kernel
  · rw [hcells]
    decide +kernel

end SpriteStage.Machine
