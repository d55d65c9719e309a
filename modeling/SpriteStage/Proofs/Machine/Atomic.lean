import SpriteStage.Proofs.Machine.Failure
import SpriteStage.Proofs.Machine.Resumption

/-!
Actions fail at once or not at all.

Deeds work in place and could fail with half of their work done. Yet all that can fail in an action
comes before its first effect (`Machine.act_eq`), also where the action pauses: what it leaves to do
then executes no statement (`Within.silent_act`), and nothing but a statement can fail while the
entity exists (`failsLast_runFrames`). So a failure finds the machine as it was when the action
began, with nothing but random numbers drawn.
-/

namespace SpriteStage.Machine

/-- The task is in the table and has not been stopped. -/
def Lives (m : Machine) (self : Self) : Prop :=
  ∃ t ∈ m.tasks, t.id = self.task ∧ t.entity = self.entity ∧ m.isStopped t.token = false

/-- The machine as the turn of a task begins. -/
def begun (m : Machine) (id : TaskId) : Machine :=
  (m.dequeue id).setTask id ({ · with state := .running })

/-- `Executes a self k m s`: the task begins the action in the machine `m`, or goes on with it there
after `k` pauses, and comes to `s`. Actions begin between two turns or at any statement of a turn.
Between a pause and the turn in which the task goes on, anything may happen to the machine that lets
the task live. -/
inductive Executes (a : Action) (self : Self) : Nat → Machine → Step → Prop where
  | start {m : Machine} (hm : m.Visited) (hlives : m.Lives self) :
      Executes a self 0 m (exec self m (.act a))
  | resume {k : Nat} {m n later : Machine} {pause : Pause} {frames : List Frame}
      (h : Executes a self k m (.paused n pause frames)) (hlater : later.Reachable)
      (hlives : later.Lives self) :
      Executes a self (k + 1) (later.begun self.task)
        (runFrames self (later.begun self.task) frames)

variable {a : Action} {self : Self} {m : Machine}

theorem Sound.entity_of_lives (h : m.Sound) (hlives : m.Lives self) :
    self.entity < m.world.entities.length := by
  obtain ⟨t, ht, -, hentity, hs⟩ := hlives
  rw [← hentity]
  exact h.entity_lt (l := t.leaf) ⟨List.mem_map_of_mem ht, hs⟩

/-- What an action leaves to do when it pauses executes no statement, so it cannot fail. -/
theorem Within.ne_failed {k : Nat} {marks : List Mark} (h : Within k (.act a) marks)
    (hlt : self.entity < m.world.entities.length) (n : Machine) (e : ScriptError) :
    runFrames self m (marks.map (·.frame)) ≠ .ended n (.failed e) := by
  intro hrun
  have hmatch : Matches (marksVisits self m marks) (framesTrace self m (marks.map (·.frame))) :=
    matches_marksVisits self m marks
  rw [h.silent_act self m a rfl] at hmatch
  have htrace : framesTrace self m (marks.map (·.frame)) = [] :=
    List.map_eq_nil_iff.1 hmatch.symm
  obtain ⟨-, ks, last, random, hlast, -⟩ :=
    failsLast_runFrames self hlt (marks.map (·.frame)) n e hrun
  rw [htrace] at hlast
  exact absurd hlast.symm (List.append_ne_nil_of_right_ne_nil ks (List.cons_ne_nil last []))

theorem Executes.leaves {k : Nat} {s : Step} (h : Executes a self k m s) :
    Leaves s (Within 0 (.act a)) := by
  induction h with
  | start hm hlives => exact leaves_exec.1 (.act a) self _ 0
  | resume h hlater hlives ih =>
    obtain ⟨marks, rfl, hmarks⟩ := ih _ _ _ rfl
    rw [runFrames_eq_resume]
    have hended : ∀ n : Machine, Leaves (.ended n .completed) (Within 0 (.act a)) :=
      fun n => leaves_ended n .completed
    refine (hmarks.leaves self _).andThen [] hended fun rest hrest => ?_
    rwa [List.append_nil]

/-- An action that fails has not paused before, and has changed nothing: the machine is the one in
which it began, but for the random source and the count of statements. -/
theorem actions_fail_before_effects {k : Nat} {s : Step} (h : Executes a self k m s) {n : Machine}
    {e : ScriptError} (hs : s = .ended n (.failed e)) :
    k = 0 ∧ n = { m with random := n.random, statements := m.statements + 1 } := by
  cases h with
  | start hm hlives =>
    have hlt := hm.sound.entity_of_lives hlives
    obtain ⟨-, ks, last, random, hlast, hn, -⟩ := failsLast_act hlt a n e hs
    have hmoment : last = ⟨m, .act a⟩ := by simpa using congrArg List.getLast? hlast.symm
    subst hmoment
    exact ⟨rfl, by rw [hn]; rfl⟩
  | @resume k m l later pause frames h hlater hlives =>
    have hlt : self.entity < (later.begun self.task).world.entities.length :=
      hlater.sound.entity_of_lives hlives
    obtain ⟨marks, rfl, hmarks⟩ := h.leaves _ _ _ rfl
    exact absurd hs (hmarks.ne_failed hlt n e)

namespace Sample

/-- The seconds are drawn before the place turns out to be no number. -/
def northward : Action :=
  .glide (.random (.literal (.number 1)) (.literal (.number 2))) (.literal (.number 5))
    (.literal (.text "north"))

end Sample

theorem actions_fail_before_effects_glide :
    ∃ n, exec ⟨1, 0⟩ Sample.machine (.act Sample.northward) =
        .ended n (.failed (.invalidNumber "Y" "north")) ∧
      n.random ≠ Sample.machine.random ∧
      n = { Sample.machine with
        random := n.random, statements := Sample.machine.statements + 1 } := by
  have hlives : Sample.machine.Lives ⟨1, 0⟩ := by
    refine ⟨Sample.machine.tasks.get ⟨0, by decide +kernel⟩, List.get_mem _ _, ?_⟩
    decide +kernel
  have hfails : ∃ n, exec ⟨1, 0⟩ Sample.machine (.act Sample.northward) =
      .ended n (.failed (.invalidNumber "Y" "north")) ∧ n.random ≠ Sample.machine.random := by
    refine ⟨_, rfl, ?_⟩
    decide +kernel
  obtain ⟨n, hexec, hrandom⟩ := hfails
  have hexecutes : Executes Sample.northward ⟨1, 0⟩ 0 Sample.machine _ :=
    .start (.inl Sample.reachable) hlives
  exact ⟨n, hexec, hrandom, (actions_fail_before_effects hexecutes hexec).2⟩

end SpriteStage.Machine
